import Bezout.Proofs.Polynomials
import Bezout.Parse

/-!
The grammar of written polynomials. A derivation is a tree with one constructor for each production;
`tokens` is the sentence that it derives and `denote` what it means over a field. Read from the right,
the last production of a sentence is known from its last tokens, so that no sentence has two
derivations (`PolyTree.tokens_injective`).
-/
namespace Bezout
open Polynomial

/-! ### Derivations -/

/-- The signs of sums and differences. -/
inductive Sign
  | plus
  | minus

def Sign.token : Sign → Token
  | plus => .plus
  | minus => .minus

theorem Sign.token_injective : Function.Injective Sign.token := by
  intro s s' same
  cases s with
  | plus =>
    cases s' with
    | plus => rfl
    | minus => cases same
  | minus =>
    cases s' with
    | plus => cases same
    | minus => rfl

theorem Sign.token_ne_slash (s : Sign) : s.token ≠ .slash := by
  cases s <;> nofun

mutual

/-- A sum of terms, the first of which may have a sign. -/
inductive PolyTree
  | term (t : TermTree)
  | signed (s : Sign) (t : TermTree)
  | joined (p : PolyTree) (s : Sign) (t : TermTree)

/-- A product of powers, with or without a sign between them. -/
inductive TermTree
  | power (w : PowerTree)
  | times (t : TermTree) (w : PowerTree)
  | juxtaposed (t : TermTree) (w : PowerTree)

/-- An atom with or without a numeral as exponent. -/
inductive PowerTree
  | atom (a : AtomTree)
  | raised (a : AtomTree) (sign : Token) (raises : sign.isPower = true) (n : ℕ)

/-- A numeral, a fraction of two numerals, a name, or a polynomial in parentheses. -/
inductive AtomTree
  | numeral (n : ℕ)
  | fraction (n d : ℕ)
  | word (name : String)
  | parenthesized (p : PolyTree)

end

mutual

/-- The sentence that a derivation derives. -/
def PolyTree.tokens : PolyTree → List Token
  | .term t => t.tokens
  | .signed s t => s.token :: t.tokens
  | .joined p s t => p.tokens ++ s.token :: t.tokens

def TermTree.tokens : TermTree → List Token
  | .power w => w.tokens
  | .times t w => t.tokens ++ .times :: w.tokens
  | .juxtaposed t w => t.tokens ++ w.tokens

def PowerTree.tokens : PowerTree → List Token
  | .atom a => a.tokens
  | .raised a sign _ n => a.tokens ++ [sign,.numeral n]

def AtomTree.tokens : AtomTree → List Token
  | .numeral n => [.numeral n]
  | .fraction n d => [.numeral n,.slash,.numeral d]
  | .word name => [.word name]
  | .parenthesized p => .openParen :: (p.tokens ++ [.closeParen])

end

/-! ### What derivations mean -/

section Meaning
variable (F : Type) [Field F]

mutual

/-- The polynomial that a derivation stands for: sums and differences associate to the left, a sign at
    the start applies to the whole first term, and an exponent to the atom before it. -/
noncomputable def PolyTree.denote : PolyTree → F[X]
  | .term t => t.denote
  | .signed .plus t => t.denote
  | .signed .minus t => -t.denote
  | .joined p .plus t => p.denote + t.denote
  | .joined p .minus t => p.denote - t.denote

noncomputable def TermTree.denote : TermTree → F[X]
  | .power w => w.denote
  | .times t w => t.denote * w.denote
  | .juxtaposed t w => t.denote * w.denote

noncomputable def PowerTree.denote : PowerTree → F[X]
  | .atom a => a.denote
  | .raised a _ _ n => a.denote ^ n

noncomputable def AtomTree.denote : AtomTree → F[X]
  | .numeral n => C (n : F)
  | .fraction n d => C ((n : F) / (d : F))
  | .word _ => X
  | .parenthesized p => p.denote

end
end Meaning

mutual

/-- Every fraction in a derivation has a denominator other than zero. -/
def PolyTree.Defined : PolyTree → Prop
  | .term t => t.Defined
  | .signed _ t => t.Defined
  | .joined p _ t => p.Defined ∧ t.Defined

def TermTree.Defined : TermTree → Prop
  | .power w => w.Defined
  | .times t w => t.Defined ∧ w.Defined
  | .juxtaposed t w => t.Defined ∧ w.Defined

def PowerTree.Defined : PowerTree → Prop
  | .atom a => a.Defined
  | .raised a _ _ _ => a.Defined

def AtomTree.Defined : AtomTree → Prop
  | .numeral _ => True
  | .fraction _ d => d ≠ 0
  | .word _ => True
  | .parenthesized p => p.Defined

end

mutual

/-- The syntax tree of a derivation. -/
def PolyTree.expr : PolyTree → Expr
  | .term t => t.expr
  | .signed .plus t => t.expr
  | .signed .minus t => .neg t.expr
  | .joined p .plus t => .add p.expr t.expr
  | .joined p .minus t => .sub p.expr t.expr

def TermTree.expr : TermTree → Expr
  | .power w => w.expr
  | .times t w => .mul t.expr w.expr
  | .juxtaposed t w => .mul t.expr w.expr

def PowerTree.expr : PowerTree → Expr
  | .atom a => a.expr
  | .raised a _ _ n => .pow a.expr n

def AtomTree.expr : AtomTree → Expr
  | .numeral n => .numeral n
  | .fraction n d => .fraction n d
  | .word _ => .indeterminate
  | .parenthesized p => p.expr

end

theorem quotient_rat (n d : ℕ) : Expr.quotient ℚ n d = (n : ℚ) / (d : ℚ) := by
  show (n : ℚ) * ((if (d : ℚ) = 0 then none else some (d : ℚ)⁻¹).getD 0) = _
  by_cases zero : (d : ℚ) = 0
  · rw [if_pos zero,zero,div_zero]
    exact mul_zero _
  · rw [if_neg zero]
    exact (div_eq_mul_inv _ _).symm

mutual

/-- The value of the syntax tree is the meaning of the derivation. -/
theorem PolyTree.toPolynomial_eval : (p : PolyTree) → (p.expr.eval ℚ).toPolynomial = p.denote ℚ
  | .term t => t.toPolynomial_eval
  | .signed .plus t => t.toPolynomial_eval
  | .signed .minus t => (Dense.toPolynomial_neg _).trans (congrArg _ t.toPolynomial_eval)
  | .joined p .plus t =>
    (Dense.toPolynomial_add _ _).trans (congrArg₂ _ p.toPolynomial_eval t.toPolynomial_eval)
  | .joined p .minus t =>
    (Dense.toPolynomial_sub _ _).trans (congrArg₂ _ p.toPolynomial_eval t.toPolynomial_eval)

theorem TermTree.toPolynomial_eval : (t : TermTree) → (t.expr.eval ℚ).toPolynomial = t.denote ℚ
  | .power w => w.toPolynomial_eval
  | .times t w =>
    (Dense.toPolynomial_mul _ _).trans (congrArg₂ _ t.toPolynomial_eval w.toPolynomial_eval)
  | .juxtaposed t w =>
    (Dense.toPolynomial_mul _ _).trans (congrArg₂ _ t.toPolynomial_eval w.toPolynomial_eval)

theorem PowerTree.toPolynomial_eval : (w : PowerTree) → (w.expr.eval ℚ).toPolynomial = w.denote ℚ
  | .atom a => a.toPolynomial_eval
  | .raised a _ _ n => (Dense.toPolynomial_pow _ n).trans (congrArg (· ^ n) a.toPolynomial_eval)

theorem AtomTree.toPolynomial_eval : (a : AtomTree) → (a.expr.eval ℚ).toPolynomial = a.denote ℚ
  | .numeral n => Dense.toPolynomial_constant _
  | .fraction n d => (Dense.toPolynomial_constant _).trans (congrArg _ (quotient_rat n d))
  | .word name => (Dense.toPolynomial_monomial _ _).trans (by simp [AtomTree.denote])
  | .parenthesized p => p.toPolynomial_eval

end

/-! ### The last token -/

/-- The tokens that an operand can end with. -/
def Token.endsOperand : Token → Bool
  | .numeral _ => true
  | .word _ => true
  | .closeParen => true
  | _ => false

/-- The last power of a term. -/
def TermTree.last : TermTree → PowerTree
  | .power w => w
  | .times _ w => w
  | .juxtaposed _ w => w

/-- The tokens of a term before its last power, from the last to the first. -/
def TermTree.before : TermTree → List Token
  | .power _ => []
  | .times t _ => .times :: t.tokens.reverse
  | .juxtaposed t _ => t.tokens.reverse

/-- The last term of a sum. -/
def PolyTree.last : PolyTree → TermTree
  | .term t => t
  | .signed _ t => t
  | .joined _ _ t => t

/-- The tokens of a sum before its last term, from the last to the first. -/
def PolyTree.before : PolyTree → List Token
  | .term _ => []
  | .signed s _ => [s.token]
  | .joined p s _ => s.token :: p.tokens.reverse

theorem TermTree.sizeOf_last_lt (t : TermTree) : sizeOf t.last < sizeOf t := by
  cases t <;> simp [TermTree.last]

theorem PolyTree.sizeOf_last_lt (p : PolyTree) : sizeOf p.last < sizeOf p := by
  cases p <;> simp [PolyTree.last]

theorem TermTree.tokens_reverse (t : TermTree) : t.tokens.reverse = t.last.tokens.reverse ++ t.before := by
  cases t <;> simp [TermTree.tokens,TermTree.last,TermTree.before]

theorem PolyTree.tokens_reverse (p : PolyTree) : p.tokens.reverse = p.last.tokens.reverse ++ p.before := by
  cases p <;> simp [PolyTree.tokens,PolyTree.last,PolyTree.before]

theorem AtomTree.exists_last (a : AtomTree) :
    ∃ t rest, a.tokens.reverse = t :: rest ∧ t.endsOperand = true := by
  cases a with
  | numeral n => exact ⟨_,_,rfl,rfl⟩
  | fraction n d => exact ⟨_,_,rfl,rfl⟩
  | word name => exact ⟨_,_,rfl,rfl⟩
  | parenthesized p => exact ⟨.closeParen,p.tokens.reverse ++ [.openParen],by simp [AtomTree.tokens],rfl⟩

theorem PowerTree.exists_last (w : PowerTree) :
    ∃ t rest, w.tokens.reverse = t :: rest ∧ t.endsOperand = true := by
  cases w with
  | atom a => exact a.exists_last
  | raised a sign _ n => exact ⟨.numeral n,sign :: a.tokens.reverse,by simp [PowerTree.tokens],rfl⟩

theorem TermTree.exists_last (t : TermTree) :
    ∃ s rest, t.tokens.reverse = s :: rest ∧ s.endsOperand = true := by
  obtain ⟨s,rest,last,ends⟩ := t.last.exists_last
  exact ⟨s,rest ++ t.before,by rw [t.tokens_reverse,last,List.cons_append],ends⟩

theorem PolyTree.exists_last (p : PolyTree) :
    ∃ s rest, p.tokens.reverse = s :: rest ∧ s.endsOperand = true := by
  obtain ⟨s,rest,last,ends⟩ := p.last.exists_last
  exact ⟨s,rest ++ p.before,by rw [p.tokens_reverse,last,List.cons_append],ends⟩

/-! ### No sentence has two derivations

What can stand before a derivation, given from the last token to the first, so that the derivation is
not part of a longer one of its kind. -/

def BeforeAtom (u : List Token) : Prop := ∀ t ∈ u.head?, t ≠ .slash

def BeforePower (u : List Token) : Prop := ∀ t ∈ u.head?, t ≠ .slash ∧ t.isPower = false

def BeforeTerm (u : List Token) : Prop := ∀ t ∈ u.head?, t = .plus ∨ t = .minus ∨ t = .openParen

def BeforePoly (u : List Token) : Prop := ∀ t ∈ u.head?, t = .openParen

theorem BeforePower.atom {u : List Token} (before : BeforePower u) : BeforeAtom u :=
  fun t last => (before t last).1

theorem BeforeTerm.power {u : List Token} (before : BeforeTerm u) : BeforePower u := by
  intro t last
  rcases before t last with rfl | rfl | rfl <;> simp [Token.isPower]

theorem BeforePoly.term {u : List Token} (before : BeforePoly u) : BeforeTerm u :=
  fun t last => .inr (.inr (before t last))

theorem beforePower_operand (t : TermTree) (u : List Token) : BeforePower (t.tokens.reverse ++ u) := by
  obtain ⟨s,rest,last,ends⟩ := t.exists_last
  rw [last]
  intro s' same
  cases same
  cases s <;> simp_all [Token.endsOperand,Token.isPower]

/-- What a term has before its last power lets a power start. -/
theorem TermTree.beforePower (t : TermTree) {u : List Token} (before : BeforeTerm u) :
    BeforePower (t.before ++ u) := by
  cases t with
  | power w => exact before.power
  | times t w => simp [TermTree.before,BeforePower,Token.isPower]
  | juxtaposed t w => exact beforePower_operand t u

/-- What a sum has before its last term lets a term start. -/
theorem PolyTree.beforeTerm (p : PolyTree) {u : List Token} (before : BeforePoly u) :
    BeforeTerm (p.before ++ u) := by
  cases p with
  | term t => exact before.term
  | signed s t => cases s <;> simp [PolyTree.before,BeforeTerm,Sign.token]
  | joined p s t => cases s <;> simp [PolyTree.before,BeforeTerm,Sign.token]

/-- A whole atom does not end like a power with an exponent. -/
theorem AtomTree.ne_raised (a : AtomTree) {u rest : List Token} (before : BeforePower u) {sign : Token}
    (raises : sign.isPower = true) (n : ℕ) : a.tokens.reverse ++ u ≠ .numeral n :: sign :: rest := by
  intro same
  cases a with
  | numeral m =>
    have after : u = sign :: rest := by simpa [AtomTree.tokens] using (List.cons.inj same).2
    have plain := (before sign (by simp [after])).2
    simp [raises] at plain
  | fraction m d =>
    have sign : .slash = sign := by simpa [AtomTree.tokens] using (List.cons.inj (List.cons.inj same).2).1
    simp [← sign,Token.isPower] at raises
  | word name => simp [AtomTree.tokens] at same
  | parenthesized p => simp [AtomTree.tokens] at same

theorem TermTree.ne_of_beforeTerm (t : TermTree) {u rest : List Token} (before : BeforeTerm u) :
    u ≠ t.tokens.reverse ++ rest := by
  rintro rfl
  obtain ⟨s,more,last,ends⟩ := t.exists_last
  rcases before s (by simp [last]) with rfl | rfl | rfl <;> simp [Token.endsOperand] at ends

theorem TermTree.ne_times (t : TermTree) {u rest : List Token} : .times :: u ≠ t.tokens.reverse ++ rest := by
  intro same
  obtain ⟨s,more,last,ends⟩ := t.exists_last
  rw [last] at same
  rw [← (List.cons.inj same).1] at ends
  cases ends

theorem PolyTree.ne_of_beforePoly (p : PolyTree) {u rest : List Token} (before : BeforePoly u) :
    u ≠ p.tokens.reverse ++ rest := by
  rintro rfl
  obtain ⟨s,more,last,ends⟩ := p.exists_last
  rw [before s (by simp [last])] at ends
  cases ends

theorem BeforeTerm.ne_times {u rest : List Token} (before : BeforeTerm u) : u ≠ .times :: rest := by
  rintro rfl
  rcases before .times rfl with same | same | same <;> cases same

theorem BeforePoly.ne_sign {u rest : List Token} (before : BeforePoly u) (s : Sign) :
    u ≠ s.token :: rest := by
  rintro rfl
  have same := before s.token rfl
  cases s <;> cases same

mutual

/-- The last term is known from the right, and the tokens before it tell the production. -/
theorem PolyTree.eq_of_tokens (p q : PolyTree) {u v : List Token} (first : BeforePoly u)
    (second : BeforePoly v) (same : p.tokens.reverse ++ u = q.tokens.reverse ++ v) : p = q ∧ u = v := by
  have smaller := p.sizeOf_last_lt
  obtain ⟨terms,rest⟩ := TermTree.eq_of_tokens p.last q.last (p.beforeTerm first) (q.beforeTerm second)
    (by simpa only [PolyTree.tokens_reverse,List.append_assoc] using same)
  cases p with
  | term t =>
    cases q with
    | term t' => exact ⟨congrArg _ terms,rest⟩
    | signed s' t' => exact absurd rest (first.ne_sign s')
    | joined q s' t' => exact absurd rest (first.ne_sign s')
  | signed s t =>
    cases q with
    | term t' => exact absurd rest.symm (second.ne_sign s)
    | signed s' t' =>
      obtain ⟨signs,before⟩ := List.cons.inj rest
      exact ⟨congrArg₂ _ (Sign.token_injective signs) terms,before⟩
    | joined q s' t' => exact absurd (List.cons.inj rest).2 (q.ne_of_beforePoly first)
  | joined p s t =>
    cases q with
    | term t' => exact absurd rest.symm (second.ne_sign s)
    | signed s' t' => exact absurd (List.cons.inj rest).2.symm (p.ne_of_beforePoly second)
    | joined q s' t' =>
      obtain ⟨signs,before⟩ := List.cons.inj rest
      obtain ⟨rfl,rfl⟩ := PolyTree.eq_of_tokens p q first second before
      exact ⟨congrArg₂ _ (Sign.token_injective signs) terms,rfl⟩
termination_by sizeOf p

/-- The last power is known from the right, and the tokens before it tell the production. -/
theorem TermTree.eq_of_tokens (t t' : TermTree) {u v : List Token} (first : BeforeTerm u)
    (second : BeforeTerm v) (same : t.tokens.reverse ++ u = t'.tokens.reverse ++ v) : t = t' ∧ u = v := by
  have smaller := t.sizeOf_last_lt
  obtain ⟨powers,rest⟩ := PowerTree.eq_of_tokens t.last t'.last (t.beforePower first)
    (t'.beforePower second) (by simpa only [TermTree.tokens_reverse,List.append_assoc] using same)
  cases t with
  | power w =>
    cases t' with
    | power w' => exact ⟨congrArg _ powers,rest⟩
    | times t' w' => exact absurd rest first.ne_times
    | juxtaposed t' w' => exact absurd rest (t'.ne_of_beforeTerm first)
  | times t w =>
    cases t' with
    | power w' => exact absurd rest.symm second.ne_times
    | times t' w' =>
      obtain ⟨rfl,rfl⟩ := TermTree.eq_of_tokens t t' first second (List.cons.inj rest).2
      exact ⟨congrArg _ powers,rfl⟩
    | juxtaposed t' w' => exact absurd rest t'.ne_times
  | juxtaposed t w =>
    cases t' with
    | power w' => exact absurd rest.symm (t.ne_of_beforeTerm second)
    | times t' w' => exact absurd rest.symm t.ne_times
    | juxtaposed t' w' =>
      obtain ⟨rfl,rfl⟩ := TermTree.eq_of_tokens t t' first second rest
      exact ⟨congrArg _ powers,rfl⟩
termination_by sizeOf t

theorem PowerTree.eq_of_tokens (w w' : PowerTree) {u v : List Token} (first : BeforePower u)
    (second : BeforePower v) (same : w.tokens.reverse ++ u = w'.tokens.reverse ++ v) :
    w = w' ∧ u = v := by
  cases w with
  | atom a =>
    cases w' with
    | atom b =>
      obtain ⟨rfl,rest⟩ := AtomTree.eq_of_tokens a b first.atom second.atom same
      exact ⟨rfl,rest⟩
    | raised b sign raises n =>
      exact absurd (by simpa [PowerTree.tokens] using same) (a.ne_raised first raises n)
  | raised a sign raises n =>
    cases w' with
    | atom b => exact absurd (by simpa [PowerTree.tokens] using same.symm) (b.ne_raised second raises n)
    | raised b sign' raises' n' =>
      obtain ⟨rfl,rfl,base⟩ : n = n' ∧ sign = sign' ∧ a.tokens.reverse ++ u = b.tokens.reverse ++ v := by
        simpa [PowerTree.tokens] using same
      obtain ⟨rfl,rest⟩ := AtomTree.eq_of_tokens a b first.atom second.atom base
      exact ⟨rfl,rest⟩
termination_by sizeOf w

theorem AtomTree.eq_of_tokens (a b : AtomTree) {u v : List Token} (first : BeforeAtom u)
    (second : BeforeAtom v) (same : a.tokens.reverse ++ u = b.tokens.reverse ++ v) :
    a = b ∧ u = v := by
  cases a with
  | numeral n =>
    cases b with
    | numeral m => simpa [AtomTree.tokens] using same
    | fraction m d =>
      have slash : u = .slash :: .numeral m :: v := by simpa [AtomTree.tokens] using (List.cons.inj same).2
      exact absurd rfl (first .slash (by simp [slash]))
    | _ => simp [AtomTree.tokens] at same
  | fraction n d =>
    cases b with
    | numeral m =>
      have slash : .slash :: .numeral n :: u = v := by simpa [AtomTree.tokens] using (List.cons.inj same).2
      exact absurd rfl (second .slash (by simp [← slash]))
    | fraction m e =>
      obtain ⟨rfl,rfl,rest⟩ : d = e ∧ n = m ∧ u = v := by simpa [AtomTree.tokens] using same
      exact ⟨rfl,rest⟩
    | _ => simp [AtomTree.tokens] at same
  | word name =>
    cases b with
    | word name' => simpa [AtomTree.tokens] using same
    | _ => simp [AtomTree.tokens] at same
  | parenthesized p =>
    cases b with
    | parenthesized q =>
      have inner : p.tokens.reverse ++ .openParen :: u = q.tokens.reverse ++ .openParen :: v := by
        simpa [AtomTree.tokens] using same
      obtain ⟨rfl,rest⟩ := PolyTree.eq_of_tokens p q (by simp [BeforePoly]) (by simp [BeforePoly]) inner
      exact ⟨rfl,(List.cons.inj rest).2⟩
    | _ => simp [AtomTree.tokens] at same
termination_by sizeOf a

end

/-- The grammar is unambiguous. -/
theorem PolyTree.tokens_injective : Function.Injective PolyTree.tokens := by
  intro p q same
  have reversed : p.tokens.reverse ++ [] = q.tokens.reverse ++ [] := by rw [same]
  exact (PolyTree.eq_of_tokens p q (by simp [BeforePoly]) (by simp [BeforePoly]) reversed).1

end Bezout

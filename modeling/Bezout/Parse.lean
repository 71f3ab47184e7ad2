import Bezout.Dense
import Bezout.Token

/-!
Reading the tokens of a polynomial from left to right, into a syntax tree (`Expr`) that means a polynomial
over any coefficients. A polynomial is a sum of terms, the first of which may have a sign; a term is a
product of powers, with or without a sign between them; a power is an atom with or without a numeral as
exponent; an atom is a numeral, a fraction of two numerals, the variable, or a polynomial in parentheses.

The state holds what is open at each level of parentheses (`Level`) and what was read last
(`Phase`). From every state some tokens lead to a whole polynomial, so a token is refused at the
first place after which nothing can be completed. A fraction is whole only with the token after it, and
with the end of the text; a denominator is found to be zero there, unless a slash follows, which is
refused itself.
-/
namespace Bezout

/-! ### Syntax trees -/

/-- A written polynomial in one variable. -/
inductive Expr
  | numeral (n : Nat)
  | fraction (n d : Nat)
  | indeterminate
  | neg (e : Expr)
  | add (a b : Expr)
  | sub (a b : Expr)
  | mul (a b : Expr)
  | pow (e : Expr) (n : Nat)
  deriving DecidableEq

namespace Expr
variable {R : Type} [Coefficient R]

/-- The coefficient that a fraction of two numerals stands for: the numerator times the inverse
    of the denominator, if that is a unit. -/
def quotient (R : Type) [Coefficient R] (n d : Nat) : R :=
  Coefficient.ofInt n * (Coefficient.inverse? (Coefficient.ofInt d : R)).getD 0

/-- The polynomial that a tree stands for. -/
def eval (R : Type) [Coefficient R] : Expr → Dense R
  | numeral n => .constant (Coefficient.ofInt n)
  | fraction n d => .constant (quotient R n d)
  | indeterminate => .monomial 1 1
  | neg e => -e.eval R
  | add a b => a.eval R + b.eval R
  | sub a b => a.eval R - b.eval R
  | mul a b => a.eval R * b.eval R
  | pow e n => (e.eval R).pow n

end Expr

/-! ### Faults -/

/-- Why a text is not a polynomial. -/
inductive ParseFault
  | illegalCharacter (c : Char) (position : Nat)
  /-- A name that is not the expected one, which is held as messages show it. -/
  | unknownVariable (name expected : String)
  | unexpected (token : Token) (position : Nat)
  | unexpectedEnd
  | zeroDenominator (numerator : Nat)
  deriving DecidableEq

def ParseFault.message : ParseFault → String
  | illegalCharacter c position =>
    s!"Illegal character {Text.quoted (String.singleton c)} at position {position}"
  | unknownVariable name expected =>
    s!"Unknown variable {Text.quoted name} (expected {expected})"
  | unexpected token position => s!"Syntax error at {token.literal} (position {position})"
  | unexpectedEnd => "Unexpected end of input"
  | zeroDenominator numerator => s!"Zero denominator in {numerator}/0"

namespace Parse

/-- How the term that is being read joins what stands before it. -/
inductive Join
  | first
  | negated
  | plus (left : Expr)
  | minus (left : Expr)

/-- The polynomial up to the end of a term. -/
def Join.apply : Join → Expr → Expr
  | first, term => term
  | negated, term => term.neg
  | plus left, term => left.add term
  | minus left, term => left.sub term

/-- What is open at one level of parentheses: the terms before the current one, and the product
    of its powers before the current one. -/
structure Level where
  join : Join
  product : Option Expr

/-- A level before its first token. -/
def Level.fresh : Level := ⟨.first, none⟩

/-- The current term up to the end of a power. -/
def Level.term (l : Level) (power : Expr) : Expr :=
  match l.product with
  | none => power
  | some product => product.mul power

/-- The polynomial up to the end of a power. -/
def Level.poly (l : Level) (power : Expr) : Expr := l.join.apply (l.term power)

/-- What was read last at the current level. -/
inductive Phase
  /-- Nothing yet. -/
  | start
  /-- A sign before an operand. -/
  | sign
  /-- A numeral, which may be the numerator of a fraction. -/
  | numeral (n : Nat)
  /-- A numerator and its slash. -/
  | slash (n : Nat)
  /-- A fraction, which is an atom once no slash follows. -/
  | fraction (n d : Nat)
  /-- An atom, which may be raised to a power. -/
  | atom (e : Expr)
  /-- An atom and the sign of a power. -/
  | caret (e : Expr)
  /-- A power with its exponent. -/
  | power (e : Expr)

/-- The power that ends with what was read last, if one does. -/
def Phase.complete? : Phase → Option Expr
  | numeral n => some (.numeral n)
  | fraction n d => some (.fraction n d)
  | atom e => some e
  | power e => some e
  | _ => none

/-- The atom that ends with what was read last, if one does. -/
def Phase.atom? : Phase → Option Expr
  | numeral n => some (.numeral n)
  | fraction n d => some (.fraction n d)
  | atom e => some e
  | _ => none

/-- The numerator of a fraction by zero, if one ends here: it was read last, and what follows, a token or
    nothing more, is not a slash. -/
def Phase.overZero? (phase : Phase) (next : Option Token) : Option Nat :=
  match phase with
  | fraction n 0 => if next = some .slash then none else some n
  | _ => none

/-- The open levels, the innermost first among `outer`, and what was read last. -/
structure State where
  outer : List Level
  level : Level
  phase : Phase

/-- The state before the first token. -/
def State.initial : State := ⟨[], .fresh, .start⟩

/-- Reads the first token of an atom; other tokens start none. -/
def State.operand (s : State) : Token → Option State
  | .numeral n => some { s with phase := .numeral n }
  | .word _ => some { s with phase := .atom .indeterminate }
  | .openParen => some ⟨s.level :: s.outer, .fresh, .start⟩
  | _ => none

/-- Reads a token after a whole power: a sign, a closing parenthesis, or an operand that
    multiplies it. -/
def State.afterPower (s : State) (power : Expr) (t : Token) : Option State :=
  let next : State := { s with level := { s.level with product := some (s.level.term power) } }
  match t with
  | .plus => some { s with level := ⟨.plus (s.level.poly power), none⟩, phase := .sign }
  | .minus => some { s with level := ⟨.minus (s.level.poly power), none⟩, phase := .sign }
  | .times => some { next with phase := .sign }
  | .closeParen =>
    match s.outer with
    | [] => none
    | level :: outer => some ⟨outer, level, .atom (s.level.poly power)⟩
  | t => next.operand t

/-- Reads a token, whatever the denominator before it is. -/
def State.shift? (s : State) (t : Token) : Option State :=
  match s.phase, t with
  | .start, .plus => some { s with phase := .sign }
  | .start, .minus => some { s with level := { s.level with join := .negated }, phase := .sign }
  | .start, t => s.operand t
  | .sign, t => s.operand t
  | .slash n, .numeral d => some { s with phase := .fraction n d }
  | .slash _, _ => none
  | .caret e, .numeral n => some { s with phase := .power (e.pow n) }
  | .caret _, _ => none
  | .numeral n, .slash => some { s with phase := .slash n }
  | phase, t =>
    match phase.atom?, t.isPower with
    | some e, true => some { s with phase := .caret e }
    | _, _ => phase.complete?.bind fun power => s.afterPower power t

/-- Reads a token: no fraction by zero must end before it, and it must go on with what was read. -/
def State.step (s : State) (t : Placed) : Except ParseFault State :=
  match s.phase.overZero? (some t.token), s.shift? t.token with
  | some n, _ => .error (.zeroDenominator n)
  | none, some next => .ok next
  | none, none => .error (.unexpected t.token t.position)

/-- Reads tokens one after the other. -/
def State.run (s : State) : List Placed → Except ParseFault State
  | [] => .ok s
  | t :: rest =>
    match s.step t with
    | .ok next => next.run rest
    | .error fault => .error fault

/-- The polynomial that was read, if it is whole and every parenthesis is closed. -/
def State.finish (s : State) : Except ParseFault Expr :=
  match s.phase.overZero? none, s.outer, s.phase.complete? with
  | some n, _, _ => .error (.zeroDenominator n)
  | none, [], some power => .ok (s.level.poly power)
  | none, _, _ => .error .unexpectedEnd

/-- Reads tokens up to the end of a polynomial. -/
def State.read (s : State) (tokens : List Placed) : Except ParseFault Expr :=
  match s.run tokens with
  | .ok state => state.finish
  | .error fault => .error fault

/-- The first name among the tokens that is not the variable. -/
def strayName? (expected : String) (tokens : List Placed) : Option String :=
  tokens.findSome? fun t =>
    match t.token with
    | .word name => if name = expected then none else some name
    | _ => none

end Parse

/-- The tokens of a text, provided that every character belongs to one. -/
def tokenize (text : String) : Except ParseFault (List Placed) :=
  match scan text with
  | ⟨tokens, none⟩ => .ok tokens
  | ⟨_, some (c, position)⟩ => .error (.illegalCharacter c position)

/-- The syntax tree of a text. Illegal characters and names other than the variable are found
    first, whichever stands further left; then the tokens are read. -/
def parseExpr (text name : String) : Except ParseFault Expr :=
  match Parse.strayName? name (scan text).tokens, tokenize text with
  | some stray, _ => .error (.unknownVariable stray (Text.quoted name))
  | none, .error fault => .error fault
  | none, .ok tokens => Parse.State.initial.read tokens

end Bezout

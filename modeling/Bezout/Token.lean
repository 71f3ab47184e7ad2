import Bezout.Text.Numeral
import Bezout.Text.Quoted
import Bezout.Text.Upper
import Bezout.Text.Word

/-!
The tokens of a written polynomial. At each place the longest name or numeral is read, then the
two signs of a power, then the single signs; spaces, tabs and line ends separate tokens (`scan`).
-/
namespace Bezout

/-- A token of a written polynomial. -/
inductive Token
  | word (name : String)
  | numeral (n : Nat)
  | caret
  | stars
  | plus
  | minus
  | times
  | slash
  | openParen
  | closeParen
  deriving DecidableEq

/-- A token with the characters it was read from and the number of characters before it. -/
structure Placed where
  token : Token
  lexeme : List Char
  position : Nat
  deriving DecidableEq

/-- The class name of an operator. -/
def operatorName (name : String) : String := "OP_" ++ Text.upper name

namespace Token

/-- The name of a token's class. -/
def className : Token → String
  | word _ => "WORD"
  | numeral _ => "NUM"
  | caret => operatorName "pow"
  | stars => operatorName "pow"
  | plus => operatorName "plus"
  | minus => operatorName "minus"
  | times => operatorName "times"
  | slash => operatorName "slash"
  | openParen => operatorName "open_paren"
  | closeParen => operatorName "close_paren"

/-- The text of a token other than a numeral. -/
def symbol? : Token → Option String
  | word name => some name
  | numeral _ => none
  | caret => some "^"
  | stars => some "**"
  | plus => some "+"
  | minus => some "-"
  | times => some "*"
  | slash => some "/"
  | openParen => some "("
  | closeParen => some ")"

/-- A token in a message: a numeral by its value, any other token quoted. -/
def literal (t : Token) : String :=
  match t, t.symbol? with
  | numeral n, _ => toString n
  | _, some text => Text.quoted text
  | _, none => ""

/-- A sign that raises an atom to a power. -/
def isPower : Token → Bool
  | caret => true
  | stars => true
  | _ => false

end Token

/-- Spaces, tabs and line ends between tokens. -/
def isGap (c : Char) : Bool := c == ' ' || c == '\t' || c == '\n'

/-- The token that starts with `c`, and how many of the characters after `c` belong to it. -/
def tokenAt (c : Char) (rest : List Char) : Option (Token × Nat) :=
  if Text.startsWord c then
    let more := rest.takeWhile Text.isWordChar
    some (.word (String.ofList (c :: more)), more.length)
  else if Text.isDigit c then
    let more := rest.takeWhile Text.isDigit
    some (.numeral (Text.numberOf (c :: more)), more.length)
  else
    match c, rest with
    | '^', _ => some (.caret, 0)
    | '*', '*' :: _ => some (.stars, 1)
    | '*', _ => some (.times, 0)
    | '+', _ => some (.plus, 0)
    | '-', _ => some (.minus, 0)
    | '/', _ => some (.slash, 0)
    | '(', _ => some (.openParen, 0)
    | ')', _ => some (.closeParen, 0)
    | _, _ => none

/-- The tokens before the first character that starts none, and that character with its place. -/
structure Scan where
  tokens : List Placed
  illegal : Option (Char × Nat)

/-- Reads tokens from a place on. -/
def scanFrom (position : Nat) : List Char → Scan
  | [] => ⟨[], none⟩
  | c :: rest =>
    if isGap c then scanFrom (position + 1) rest
    else
      match tokenAt c rest with
      | none => ⟨[], some (c, position)⟩
      | some (token, more) =>
        let later := scanFrom (position + 1 + more) (rest.drop more)
        ⟨⟨token, c :: rest.take more, position⟩ :: later.tokens, later.illegal⟩
termination_by s => s.length
decreasing_by
  · simp
  · simp only [List.length_drop, List.length_cons]
    omega

/-- The tokens of a text. -/
def scan (text : String) : Scan := scanFrom 0 text.toList

end Bezout

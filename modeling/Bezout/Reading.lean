import Bezout.PolyArithmetic

/-!
Reading polynomials over any ring. A text is read over the rational numbers and then taken into the ring,
so that `1/2 + 1/2` is an integer polynomial. The variable may be handed in as a value: a text is the name
of a variable, and any other value names none, so that no name in a written polynomial is the variable.
-/
namespace Bezout

/-- The text that a value is. -/
def Value.toText : Value → Except Fault String
  | text s => .ok s
  | list _ | tuple _ | division _ => .error .notText
  | _ => .error .unsuitable

/-- A fault met by a coefficient of a text, which the message goes on to show. A bare ring's
    refusal stays as it is. -/
def Fault.inText (text : String) : Fault → Fault
  | takesNoValue => takesNoValue
  | cause => coefficient cause text

/-- The polynomial over a ring that a text writes in a variable of the given name. -/
def Poly.ofText (text : String) (r : BaseRing) (name : String) : Except Fault Poly :=
  match parseExpr text name with
  | .error fault => .error (.parse fault)
  | .ok e => (changeRing ⟨.rationals, e.eval Rat⟩ r).mapError (Fault.inText text)

/-! ### Variables that are values -/

/-- The name that stands in a token, if the token is one. -/
def Token.name? : Token → Option String
  | word name => some name
  | _ => none

namespace Poly

/-- The polynomial over a ring that a text writes in a variable. Without a name for the variable,
    the first name in the text is unknown, and a text without names needs none. -/
def ofTextIn (name : Value) (text : String) (r : BaseRing) : Except Fault Poly :=
  match name with
  | .text name => ofText text r name
  | other =>
    match (scan text).tokens.findSome? fun t => t.token.name? with
    | some stray => .error (.parse (.unknownVariable stray other.literal))
    | none => ofText text r "x"

/-- The polynomial written in a variable. What is no name can stand before an exponent, but not
    alone. -/
def textIn (p : Poly) (name : Value) : Except Fault String :=
  match name, p.numbers[1]? with
  | .text name, _ => .ok (p.text name)
  | other, none => .ok (p.text other.plain)
  | other, some c => if c.isZero then .ok (p.text other.plain) else .error .unsuitable

end Poly

end Bezout

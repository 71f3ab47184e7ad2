import Bezout.Floating
import Bezout.Poly
import Bezout.Text.Quoted

/-!
Values that are handed to an operation before it is known whether they fit: numbers, texts,
sequences, rings, polynomials and divisions. Each has a kind, a plain text and a literal form, and
any two can be compared (`Value.same`).
-/
namespace Bezout

/-- The kinds of values. -/
inductive Kind
  | nothing | boolean | integer | fraction | decimal | text | list | tuple | table
  | integerRing | rationalField | primeField | bareRing | polynomial | division | kind
  deriving DecidableEq

/-- The name of a kind in messages. -/
def Kind.name : Kind → String
  | nothing => "NoneType"
  | boolean => "bool"
  | integer => "int"
  | fraction => "Fraction"
  | decimal => "float"
  | text => "str"
  | list => "list"
  | tuple => "tuple"
  | table => "OrderedDict"
  | integerRing => "IntegerRing"
  | rationalField => "RationalField"
  | primeField => "PrimeField"
  | bareRing => "Ring"
  | polynomial => "Polynomial"
  | division => "DivisionResult"
  | kind => "type"

/-- The kind of a ring as a value. -/
def BaseRing.kind : BaseRing → Kind
  | integers => .integerRing
  | rationals => .rationalField
  | residues _ => .primeField
  | bare _ _ => .bareRing

/-- What an operation may be handed. -/
inductive Value
  | nothing
  | boolean (b : Bool)
  | number (n : Number)
  | decimal (d : Decimal)
  | text (s : String)
  | list (items : List Value)
  | tuple (items : List Value)
  /-- Integers with their counts, in order. -/
  | table (entries : List (Int × Nat))
  | ring (r : BaseRing)
  | polynomial (p : Poly)
  | division (d : Division Poly)
  | kind (k : Kind)

namespace Value

instance : Inhabited Value := ⟨nothing⟩

/-- The value of an integer. -/
abbrev integer (n : Int) : Value := number (.integer n)

/-- The value of a fraction. -/
abbrev fraction (q : Rat) : Value := number (.fraction q)

def kindOf : Value → Kind
  | nothing => .nothing
  | boolean _ => .boolean
  | number (.integer _) => .integer
  | number (.fraction _) => .fraction
  | decimal _ => .decimal
  | text _ => .text
  | list _ => .list
  | tuple _ => .tuple
  | table _ => .table
  | ring r => r.kind
  | polynomial _ => .polynomial
  | division _ => .division
  | kind _ => .kind

/-- The truth values as they are written. -/
def truthText (b : Bool) : String := if b then "True" else "False"

/-- Integers with their counts as a list of pairs. -/
def tableText : List (Int × Nat) → String
  | [] => "OrderedDict()"
  | entries =>
    "OrderedDict([" ++ ", ".intercalate (entries.map fun (n, count) => s!"({n}, {count})") ++ "])"

mutual
/-- The form that shows the kind of a value: texts are quoted, fractions are marked. -/
def literal : Value → String
  | nothing => "None"
  | boolean b => truthText b
  | number n => n.literal
  | decimal d => d.text
  | text s => Text.quoted s
  | list items => "[" ++ ", ".intercalate (literals items) ++ "]"
  | tuple items => tupleText (literals items)
  | table entries => tableText entries
  | ring r => r.name
  | polynomial p => p.literal
  | division d => d.literal
  | kind k => s!"<class '{k.name}'>"

/-- The literal forms of several values. -/
def literals : List Value → List String
  | [] => []
  | v :: rest => literal v :: literals rest
end

/-- The plain form: texts stand as they are, polynomials are written in `x`. -/
def plain : Value → String
  | text s => s
  | number n => n.text
  | polynomial p => p.text "x"
  | v => v.literal

/-- The exact number of a value that has one: truth values count as zero and one. -/
def exactNumber? : Value → Option Number
  | boolean b => some (.integer b.toInt)
  | number n => some n
  | _ => none

/-- The number that a value is compared by, if it has one. -/
def number? : Value → Option Number
  | decimal d => some (.fraction d.value)
  | v => v.exactNumber?

mutual
/-- Values are the same if they have the same number, or the same kind and the same parts. -/
def same : Value → Value → Bool
  | nothing, nothing => true
  | text s, text t => s == t
  | list xs, list ys => sameAll xs ys
  | tuple xs, tuple ys => sameAll xs ys
  | table xs, table ys => xs == ys
  | ring r, ring s => decide (r = s)
  | polynomial p, polynomial q => decide (p = q)
  | division d, division e => decide (d = e)
  | kind j, kind k => decide (j = k)
  | v, w =>
    match v.number?, w.number? with
    | some a, some b => a.same b
    | _, _ => false

/-- Two sequences of values are the same item by item. -/
def sameAll : List Value → List Value → Bool
  | [], [] => true
  | v :: vs, w :: ws => same v w && sameAll vs ws
  | _, _ => false
end

/-- Nothing, zero and whatever is empty count as false. -/
def isTrue : Value → Bool
  | nothing => false
  | boolean b => b
  | number n => !n.isZero
  | decimal d => d.digits != 0
  | text s => s != ""
  | list items => !items.isEmpty
  | tuple items => !items.isEmpty
  | table entries => !entries.isEmpty
  | polynomial p => !p.isZero
  | _ => true

end Value
end Bezout

import Bezout.Work

/-!
Annotations of values, and calls of functions whose parameters and result are annotated. A value
fits an annotation if it is of the kind it names, or a tuple whose entries fit entry by entry; the
first mismatch from left to right is reported with the path to it.
-/
namespace Bezout

/-- What is required of a value. -/
inductive Annotation
  | any
  | kind (k : Kind)
  /-- A tuple with an annotation for each entry. -/
  | tuple (entries : List Annotation)

/-- Whether all that is of one kind is of another: truth values are integers, and every ring is of
    the kind of the bare rings. -/
def Kind.isA : Kind → Kind → Bool
  | .boolean, .integer => true
  | .integerRing, .bareRing => true
  | .rationalField, .bareRing => true
  | .primeField, .bareRing => true
  | j, k => j = k

/-- A value is of its own kind and of those that its kind belongs to. -/
def Value.isOf (v : Value) (k : Kind) : Bool := v.kindOf.isA k

namespace Annotation

mutual
/-- Finds the first mismatch; `label` is the path to the value. -/
def check (label : String) : Annotation → Value → Except Fault Unit
  | any, _ => .ok ()
  | kind k, v => if v.isOf k then .ok () else .error (.wrongKind label v.kindOf k)
  | tuple entries, .tuple items =>
    if items.length = entries.length then checkEntries label 0 entries items
    else .error (.wrongLength label items.length entries.length)
  | tuple _, v => .error (.wrongKind label v.kindOf .tuple)

/-- Finds the first mismatch among the entries from `i` on. -/
def checkEntries (label : String) (i : Nat) : List Annotation → List Value → Except Fault Unit
  | a :: entries, v :: items =>
    match check s!"{label}[{i}]" a v with
    | .ok _ => checkEntries label (i + 1) entries items
    | .error fault => .error fault
  | _, _ => .ok ()
end

end Annotation

/-- A value that has to be a polynomial. -/
def Value.poly (label : String) : Value → Except Fault Poly
  | polynomial p => .ok p
  | v => .error (.wrongKind label v.kindOf .polynomial)

/-- A parameter of a function; one without a default has to be given. -/
structure Parameter where
  name : String
  annotation : Annotation
  default : Option Value

/-- A function with annotated parameters and result. -/
structure Signature where
  parameters : List Parameter
  result : Annotation

namespace Signature

/-- The annotation under a name; the result is annotated under the name `return`. -/
def annotationOf (s : Signature) (name : String) : Annotation :=
  match s.parameters.find? (·.name = name) with
  | some p => p.annotation
  | none => if name = "return" then s.result else .any

/-- Checks the arguments given by position, in the order of the parameters. -/
def checkPositional : List Parameter → List Value → Except Fault Unit
  | p :: parameters, v :: values =>
    match p.annotation.check p.name v with
    | .ok _ => checkPositional parameters values
    | .error fault => .error fault
  | _, _ => .ok ()

/-- Checks the arguments given by name, in the order of the call. -/
def checkNamed (s : Signature) : List (String × Value) → Except Fault Unit
  | [] => .ok ()
  | (name, v) :: rest =>
    match (s.annotationOf name).check name v with
    | .ok _ => s.checkNamed rest
    | .error fault => .error fault

/-- The values of the parameters: each is given once, by position or by name, or has a default. -/
def bind (s : Signature) (positional : List Value) (named : List (String × Value)) :
    Except Fault (List Value) :=
  if s.parameters.length < positional.length then .error .unsuitable
  else if named.any fun (name, _) =>
      !(s.parameters.drop positional.length).any (·.name = name) then .error .unsuitable
  else do
    let others ← (s.parameters.drop positional.length).mapM fun p =>
      match named.lookup p.name, p.default with
      | some v, _ => .ok v
      | none, some v => .ok v
      | none, none => .error .unsuitable
    .ok (positional ++ others)

/-- Calls a function: the arguments are checked, then matched with the parameters; the body runs
    only then, and its result is checked under the name `return`. -/
def call (s : Signature) (body : List Value → Work Value) (positional : List Value)
    (named : List (String × Value)) : Work Value := do
  Work.ofExcept (checkPositional s.parameters positional)
  Work.ofExcept (s.checkNamed named)
  let arguments ← Work.ofExcept (s.bind positional named)
  let result ← body arguments
  Work.ofExcept (s.result.check "return" result)
  .done result

end Signature
end Bezout

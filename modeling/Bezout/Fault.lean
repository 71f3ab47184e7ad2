import Bezout.Parse
import Bezout.Value

/-!
The reasons why an operation has no result, and the message of each (`Fault.message`).
-/
namespace Bezout

/-- Why an operation has no result. -/
inductive Fault
  /-- The value stands for no element of the ring. -/
  | notInRing (v : Value) (r : BaseRing)
  /-- The denominator is zero in the ring. -/
  | noImage (q : Rat) (r : BaseRing)
  /-- A truth value or a number that is not prime. -/
  | notPrime (n : Value)
  | unknownRing (name : String)
  | notInteger (text : String)
  /-- A sequence of something else where a text was expected. -/
  | notText
  | everyElementIsRoot
  /-- Fewer than three parts where a division was expected. -/
  | tooFewParts (found : Nat)
  /-- More than three parts where a division was expected. -/
  | tooManyParts
  /-- A fault that a script asks for. -/
  | stated (message : String)
  | parse (fault : ParseFault)
  /-- A coefficient of a written polynomial lies outside the ring. -/
  | coefficient (cause : Fault) (text : String)
  | notUnit (a : Number) (r : BaseRing)
  | divisionByZero (a : Number)
  | notDivisible (a b : Number)
  | needsField (r : BaseRing)
  | needsCharacteristicZero (r : BaseRing)
  | needsElements (r : BaseRing)
  | needsPrimeField (r : BaseRing)
  | notCertifiable (r : BaseRing)
  | noCounterexamples
  /-- Polynomials over different rings in one sum, difference or product. -/
  | mixedRings (r s : BaseRing)
  /-- Polynomials over different rings where one ring is required. -/
  | differentRings
  /-- A number of times that is negative. -/
  | negativeCount
  | badExponent
  | nothingGiven
  | wrongKind (label : String) (found expected : Kind)
  | wrongLength (label : String) (found expected : Nat)
  | badSettingKind
  /-- A bare ring takes in no value. -/
  | takesNoValue
  | conflictingOption (flag : String)
  | namelessOption (flag : String)
  | settingAsCondition (name : String)
  /-- A value of a kind that the operation has no rule for. -/
  | unsuitable
  /-- A part that the value does not have. -/
  | missingPart
  | outOfRange
  /-- A file cannot be made at the place that was named. -/
  | noSuchPlace
  /-- There is a directory where a file was to be made. -/
  | isDirectory (path : String)

namespace Fault

/-- What the message says of a value outside a ring. -/
def outsideOf : BaseRing → String
  | .integers => "an integer"
  | .rationals => "a rational number"
  | r => s!"an element of {r.name}"

/-- The message of a fault. -/
def message : Fault → String
  | notInRing v r => s!"{v.literal} is not {outsideOf r}"
  | noImage q r => s!"{(Number.fraction q).text} has no image in {r.name}"
  | notPrime n => s!"GF({n.plain}) is not a field: {n.plain} is not prime"
  | unknownRing name => s!"unknown ring {Text.quoted name}"
  | notInteger text => s!"invalid literal for int() with base 10: {Text.quoted text}"
  | notText => "Expected a string"
  | everyElementIsRoot => "every element is a root of the zero polynomial"
  | tooFewParts found => s!"not enough values to unpack (expected 3, got {found})"
  | tooManyParts => "too many values to unpack (expected 3)"
  | stated text => text
  | parse fault => fault.message
  | coefficient cause text => s!"{cause.message} in {Text.quoted text}"
  | notUnit a r => s!"{a.text} is not a unit of {r.name}"
  | divisionByZero a => s!"division of {a.text} by zero in ZZ"
  | notDivisible a b => s!"{a.text} is not divisible by {b.text} in ZZ"
  | needsField r => s!"monic polynomials need a field, not {r.name}"
  | needsCharacteristicZero r => s!"square-free parts need characteristic 0, not {r.name}"
  | needsElements r => s!"cannot enumerate the roots of a polynomial over {r.name}"
  | needsPrimeField r => s!"irreducibility is only decided over prime fields, not {r.name}"
  | notCertifiable r => s!"cannot certify identities over {r.name}"
  | noCounterexamples => "counterexamples are only searched for in characteristic 0"
  | mixedRings r s => s!"cannot mix polynomials over {r.name} and {s.name}"
  | badExponent => "exponent must be a non-negative integer"
  | nothingGiven => "gcd_all of nothing needs an explicit ring"
  | wrongKind label found expected => s!"{label} has type {found.name}, not {expected.name}"
  | wrongLength label found expected => s!"{label} has {found} entries, not {expected}"
  | conflictingOption flag => s!"argument {flag}: conflicting option string: {flag}"
  | namelessOption flag => s!"dest= is required for options like {Text.quoted flag}"
  | settingAsCondition name =>
    s!"Option {Text.quoted name} was used as a boolean; read `.value` instead."
  | isDirectory path => s!"[Errno 21] Is a directory: {Text.quoted path}"
  | differentRings | negativeCount | badSettingKind | takesNoValue => ""
  | unsuitable | missingPart | outOfRange | noSuchPlace => ""

end Fault
end Bezout

import Bezout.Coefficient

/-!
Polynomials as their coefficients, lowest first, with no zero at the end. Equal polynomials thus
have equal coefficient lists, and `coeff` is the view that every operation is described by.
-/
namespace Bezout

/-- A coefficient list without the zeros at its end. -/
def strip {R : Type} [Coefficient R] : List R → List R
  | [] => []
  | c :: rest =>
    match strip rest with
    | [] => if c = 0 then [] else [c]
    | kept => c :: kept

theorem strip_getLast? {R : Type} [Coefficient R] (cs : List R) : (strip cs).getLast? ≠ some 0 := by
  induction cs with
  | nil => simp [strip]
  | cons c rest ih =>
    rw [strip]
    split
    · split
      · simp
      · simpa using ‹¬c = 0›
    · rename_i kept nonempty
      cases found : strip rest with
      | nil => exact absurd found nonempty
      | cons d more => rw [found] at ih; simpa using ih

/-- A polynomial: its coefficients, lowest first, the last of them not zero. -/
structure Dense (R : Type) [Coefficient R] where
  coeffs : List R
  stripped : coeffs.getLast? ≠ some 0

namespace Dense
variable {R : Type} [Coefficient R]

instance : DecidableEq (Dense R) := fun p q =>
  if same : p.coeffs = q.coeffs then isTrue (by cases p; cases q; cases same; rfl)
  else isFalse fun h => same (h ▸ rfl)

@[ext] theorem ext {p q : Dense R} (same : p.coeffs = q.coeffs) : p = q := by
  cases p; cases q; cases same; rfl

/-- The polynomial with the given coefficients, lowest first. -/
def ofList (cs : List R) : Dense R := ⟨strip cs, strip_getLast? cs⟩

/-- The coefficient at a power, zero from the size on. -/
def coeff (p : Dense R) (i : Nat) : R := p.coeffs.getD i 0

/-- One more than the degree, and zero for the zero polynomial. -/
def size (p : Dense R) : Nat := p.coeffs.length

/-- The leading coefficient, zero for the zero polynomial. -/
def lead (p : Dense R) : R := p.coeffs.getLast?.getD 0

instance : Zero (Dense R) := ⟨⟨[], by simp⟩⟩

/-- The constant polynomial with a value. -/
def constant (c : R) : Dense R := ofList [c]

/-- A coefficient times a power of the variable. -/
def monomial (c : R) (n : Nat) : Dense R := ofList (List.replicate n 0 ++ [c])

instance : One (Dense R) := ⟨constant 1⟩

/-- The variable less an element, the monic polynomial with that root. -/
def linearFactor (a : R) : Dense R := ofList [-a, 1]

/-- The sums of coefficients at the same power; the longer list goes on alone. -/
def addCoeffs : List R → List R → List R
  | [], bs => bs
  | as, [] => as
  | a :: as, b :: bs => (a + b) :: addCoeffs as bs

instance : Add (Dense R) := ⟨fun p q => ofList (addCoeffs p.coeffs q.coeffs)⟩

instance : Neg (Dense R) := ⟨fun p => ofList (p.coeffs.map (- ·))⟩

instance : Sub (Dense R) := ⟨fun p q => p + -q⟩

/-- The coefficients of a product: the first coefficient times all of the second list, plus the
    product with the rest one power up. A first coefficient of zero adds nothing. -/
def mulCoeffs : List R → List R → List R
  | [], _ => []
  | a :: as, bs =>
    let later := 0 :: mulCoeffs as bs
    if a = 0 then later else addCoeffs (bs.map (a * ·)) later

instance : Mul (Dense R) := ⟨fun p q => ofList (mulCoeffs p.coeffs q.coeffs)⟩

/-- Powers by repeated squaring. -/
def pow (p : Dense R) (n : Nat) : Dense R := power (· * ·) 1 p n

/-- Every coefficient times an element. -/
def scale (c : R) (p : Dense R) : Dense R := ofList (p.coeffs.map (c * ·))

/-- The product with a power of the variable. -/
def shift (n : Nat) (p : Dense R) : Dense R :=
  if p = 0 then p else ofList (List.replicate n 0 ++ p.coeffs)

/-- The value at an element, from the leading coefficient down. -/
def eval (x : R) (p : Dense R) : R := p.coeffs.foldr (fun c value => value * x + c) 0

/-- The coefficients of the derivative of a list that starts at power `n`. -/
def derivativeCoeffs (n : Nat) : List R → List R
  | [] => []
  | c :: rest => (Coefficient.ofInt n * c) :: derivativeCoeffs (n + 1) rest

/-- The formal derivative. -/
def derivative (p : Dense R) : Dense R := ofList (derivativeCoeffs 1 p.coeffs.tail)

/-- The numbers that stand for the coefficients, lowest first. -/
def numbers (p : Dense R) : List Number := p.coeffs.map Coefficient.number

end Dense
end Bezout

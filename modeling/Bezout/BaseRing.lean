import Bezout.Coefficient

/-!
The rings that polynomials are written over: the integers, the rational numbers, the residues by a
prime, and bare rings, of which only the characteristic is known. A prime modulus is found by trial
division up to the square root (`isPrime`). A residue is held as the integer from zero up to below the
modulus; its inverse is its power with exponent two less than the modulus.
-/
namespace Bezout

/-! ### Prime moduli -/

/-- Whether some number from `i` up to the square root of `n` divides `n`. -/
def hasDivisorFrom (n i : Nat) : Bool :=
  if i * i ≤ n then n % i == 0 || hasDivisorFrom n (i + 1) else false
termination_by n + 1 - i
decreasing_by
  have : i ≤ i * i := Nat.le_mul_self i
  omega

/-- Trial division by every number from two up to the square root. -/
def isPrime (n : Nat) : Bool := decide (2 ≤ n) && !hasDivisorFrom n 2

/-- A prime number to reckon by. -/
structure Modulus where
  value : Nat
  prime : isPrime value = true
  deriving DecidableEq

namespace Modulus

/-- The modulus of an integer that is prime; no negative number is. -/
def ofInt? (n : Int) : Option Modulus :=
  if prime : isPrime n.toNat = true then some ⟨n.toNat, prime⟩ else none

theorem two_le (m : Modulus) : 2 ≤ m.value := by
  have prime := m.prime
  simp only [isPrime, Bool.and_eq_true, decide_eq_true_eq] at prime
  exact prime.1

theorem pos (m : Modulus) : 0 < (m.value : Int) := by
  have := m.two_le
  omega

end Modulus

/-! ### Residues -/

/-- A residue of the integers by a prime modulus. -/
structure Residue (m : Modulus) where
  value : Int
  nonneg : 0 ≤ value
  lt : value < m.value
  deriving DecidableEq

namespace Residue
variable {m : Modulus}

/-- The residue of an integer. -/
def ofInt (m : Modulus) (n : Int) : Residue m :=
  ⟨n % m.value, Int.emod_nonneg n (Int.ne_of_gt m.pos), Int.emod_lt_of_pos n m.pos⟩

@[simp] theorem value_ofInt (n : Int) : (ofInt m n).value = n % m.value := rfl

@[ext] theorem ext {a b : Residue m} (same : a.value = b.value) : a = b := by
  cases a; cases b; cases same; rfl

/-- Reducing the integer that stands for a residue gives the residue back. -/
@[simp] theorem ofInt_value (a : Residue m) : ofInt m a.value = a :=
  ext (Int.emod_eq_of_lt a.nonneg a.lt)

instance : Zero (Residue m) := ⟨ofInt m 0⟩
instance : One (Residue m) := ⟨ofInt m 1⟩
instance : Add (Residue m) := ⟨fun a b => ofInt m (a.value + b.value)⟩
instance : Neg (Residue m) := ⟨fun a => ofInt m (-a.value)⟩
instance : Mul (Residue m) := ⟨fun a b => ofInt m (a.value * b.value)⟩

@[simp] theorem value_add (a b : Residue m) : (a + b).value = (a.value + b.value) % m.value := rfl
@[simp] theorem value_neg (a : Residue m) : (-a).value = -a.value % m.value := rfl
@[simp] theorem value_mul (a b : Residue m) : (a * b).value = a.value * b.value % m.value := rfl

/-- The inverse of a residue that is not zero. -/
def inverse? (a : Residue m) : Option (Residue m) :=
  if a = 0 then none else some (power (· * ·) 1 a (m.value - 2))

instance : Coefficient (Residue m) where
  decEq := inferInstance
  ofInt := ofInt m
  inverse? := inverse?
  number a := .integer a.value

end Residue

/-! ### Rings -/

/-- The ring that the coefficients of a polynomial come from. -/
inductive BaseRing
  | integers
  | rationals
  | residues (m : Modulus)
  /-- A ring of which only the characteristic is known. It takes in no value, so that zero is its
      only polynomial. Bare rings are told apart by a mark, not by their characteristic. -/
  | bare (characteristic : Int) (mark : Nat)
  deriving DecidableEq

namespace BaseRing

/-- The elements of a ring. A bare ring reckons with integers. -/
@[reducible] def Elem : BaseRing → Type
  | integers => Int
  | rationals => Rat
  | residues m => Residue m
  | bare _ _ => Int

instance : (r : BaseRing) → Coefficient r.Elem
  | integers => inferInstanceAs (Coefficient Int)
  | rationals => inferInstanceAs (Coefficient Rat)
  | residues m => inferInstanceAs (Coefficient (Residue m))
  | bare _ _ => inferInstanceAs (Coefficient Int)

def name : BaseRing → String
  | integers => "ZZ"
  | rationals => "QQ"
  | residues m => s!"GF({m.value})"
  | bare _ _ => "R"

def characteristic : BaseRing → Int
  | integers => 0
  | rationals => 0
  | residues m => m.value
  | bare c _ => c

/-- Whether every element but zero is known to be a unit. -/
def isField : BaseRing → Bool
  | rationals => true
  | residues _ => true
  | _ => false

/-- The elements of a finite ring in increasing order. -/
def elements? : BaseRing → Option (List Int)
  | residues m => some ((List.range m.value).map Int.ofNat)
  | _ => none

end BaseRing

end Bezout

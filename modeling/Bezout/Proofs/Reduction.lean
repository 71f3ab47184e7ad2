import Bezout.Proofs.Reckoning

/-!
Rational numbers modulo a prime. Those whose reduced denominators are prime to it are a ring
(`Modulus.integral`), and taking them into the residues respects its operations (`Modulus.reduce`). Hence a
polynomial over the rational numbers has an image among the polynomials over the residues
(`Dense.ImageModulo`) that goes along with sums, products and powers, and taking it into the prime field
finds this image.
-/
namespace Bezout
open Polynomial
open Coefficient (number)

namespace Modulus
variable (m : Modulus)

theorem natCast_eq_zero_iff (n : ℕ) : (n : Residue m) = 0 ↔ m.value ∣ n := by
  rw [← Residue.toZMod_injective.eq_iff,← ZMod.natCast_eq_zero_iff]
  have class_of : (n : Residue m).toZMod = n := map_natCast (Residue.toZModHom m) n
  rw [class_of,Residue.toZMod_zero]

theorem den_ne_zero {q : ℚ} (prime : ¬ m.value ∣ q.den) : (q.den : Residue m) ≠ 0 :=
  mt (natCast_eq_zero_iff m _).mp prime

/-- The rational numbers that have a residue. -/
def integral : Subring ℚ where
  carrier := {q | ¬ m.value ∣ q.den}
  zero_mem' := by simpa using (Fact.out : m.value.Prime).ne_one
  one_mem' := by simpa using (Fact.out : m.value.Prime).ne_one
  add_mem' {a b} ha hb divides := by
    have product := divides.trans (Rat.add_den_dvd a b)
    exact ((Nat.Prime.dvd_mul Fact.out).mp product).elim ha hb
  mul_mem' {a b} ha hb divides := by
    have product := divides.trans (Rat.mul_den_dvd a b)
    exact ((Nat.Prime.dvd_mul Fact.out).mp product).elim ha hb
  neg_mem' {a} ha := by simpa using ha

theorem mem_integral {q : ℚ} : q ∈ m.integral ↔ ¬ m.value ∣ q.den := Iff.rfl

/-- The residue of a rational number: that of the numerator by that of the denominator. -/
def reduce : m.integral →+* Residue m where
  toFun q := ((q : ℚ) : Residue m)
  map_zero' := Rat.cast_zero
  map_one' := Rat.cast_one
  map_add' a b := Rat.cast_add_of_ne_zero (m.den_ne_zero a.2) (m.den_ne_zero b.2)
  map_mul' a b := Rat.cast_mul_of_ne_zero (m.den_ne_zero a.2) (m.den_ne_zero b.2)

/-- A fraction whose written denominator is prime to the modulus has a residue, reduced or not. -/
theorem div_mem_integral (n : ℕ) {d : ℕ} (prime : ¬ m.value ∣ d) : (n / d : ℚ) ∈ m.integral := by
  rw [mem_integral]
  intro divides
  have reduced := Rat.den_dvd n d
  rw [Rat.divInt_eq_div,Int.cast_natCast,Int.cast_natCast,Int.natCast_dvd_natCast] at reduced
  exact prime (divides.trans reduced)

theorem reduce_div (n : ℕ) {d : ℕ} (prime : ¬ m.value ∣ d) :
    m.reduce ⟨n / d,m.div_mem_integral n prime⟩ = (n : Residue m) / d := by
  have nonzero : (d : ℚ) ≠ 0 := by
    rw [Nat.cast_ne_zero]
    rintro rfl
    exact prime (dvd_zero _)
  have cancels : (⟨n / d,m.div_mem_integral n prime⟩ : m.integral) * (d : m.integral) = n :=
    Subtype.ext (div_mul_cancel₀ _ nonzero)
  rw [eq_div_iff (mt (natCast_eq_zero_iff m d).mp prime),← map_natCast m.reduce d,← map_mul,cancels,
    map_natCast]

end Modulus

namespace BaseRing
variable {m : Modulus}

/-- A fraction is taken into the residues as the residue of the rational number. -/
theorem ofNumber_fraction {q : ℚ} (prime : q ∈ m.integral) :
    (residues m).ofNumber (.fraction q) = .ok (q : Residue m) := by
  have nonzero : Residue.ofInt m q.den ≠ 0 := m.den_ne_zero prime
  obtain ⟨inverse,found⟩ := Option.ne_none_iff_exists'.mp fun none =>
    Coefficient.inverse?_eq_none_iff.mp none (IsUnit.mk0 (Residue.ofInt m q.den) nonzero)
  have unit : Residue.ofInt m q.den * inverse = 1 := Residue.inverse?_eq_some_iff.mp found
  have value : (q : Residue m) = Residue.ofInt m q.num * inverse := by
    rw [Rat.cast_def,div_eq_iff (m.den_ne_zero prime)]
    show (q.num : Residue m) = q.num * inverse * Residue.ofInt m q.den
    rw [mul_assoc,mul_comm inverse,unit,mul_one]
  have known : (Residue.ofInt m q.den).inverse? = some inverse := found
  rw [ofNumber,known,value]

theorem ofNumber_fraction_of_dvd {q : ℚ} (divides : m.value ∣ q.den) :
    (residues m).ofNumber (.fraction q) = .error (.noImage q (residues m)) := by
  have zero : Residue.ofInt m q.den = 0 := (m.natCast_eq_zero_iff q.den).mpr divides
  have none : (Residue.ofInt m q.den).inverse? = none := by rw [zero,Residue.inverse?,if_pos rfl]
  rw [ofNumber,none]

end BaseRing

namespace Dense
variable {m : Modulus}

/-- One polynomial, with coefficients that have residues, is `p` over the rational numbers and `q` over the
    residues. -/
def ImageModulo (p : Dense ℚ) (q : Dense (Residue m)) : Prop :=
  ∃ P : m.integral[X], P.map m.integral.subtype = p.toPolynomial ∧ P.map m.reduce = q.toPolynomial

section Operations
variable {p p' : Dense ℚ} {q q' : Dense (Residue m)}

theorem ImageModulo.constant (c : m.integral) :
    ImageModulo (Dense.constant (c : ℚ)) (Dense.constant (m.reduce c)) :=
  ⟨C c,by simp,by simp⟩

theorem ImageModulo.indeterminate : ImageModulo (Dense.monomial 1 1) (Dense.monomial (1 : Residue m) 1) :=
  ⟨X,by simp,by simp⟩

theorem ImageModulo.neg (image : ImageModulo p q) : ImageModulo (-p) (-q) := by
  obtain ⟨P,first,second⟩ := image
  exact ⟨-P,by simp [first],by simp [second]⟩

theorem ImageModulo.add (image : ImageModulo p q) (image' : ImageModulo p' q') :
    ImageModulo (p + p') (q + q') := by
  obtain ⟨P,first,second⟩ := image
  obtain ⟨P',first',second'⟩ := image'
  exact ⟨P + P',by simp [first,first'],by simp [second,second']⟩

theorem ImageModulo.sub (image : ImageModulo p q) (image' : ImageModulo p' q') :
    ImageModulo (p - p') (q - q') := image.add image'.neg

theorem ImageModulo.mul (image : ImageModulo p q) (image' : ImageModulo p' q') :
    ImageModulo (p * p') (q * q') := by
  obtain ⟨P,first,second⟩ := image
  obtain ⟨P',first',second'⟩ := image'
  exact ⟨P * P',by simp [first,first'],by simp [second,second']⟩

theorem ImageModulo.pow (image : ImageModulo p q) (n : ℕ) : ImageModulo (p.pow n) (q.pow n) := by
  obtain ⟨P,first,second⟩ := image
  exact ⟨P ^ n,by simp [first],by simp [second]⟩

theorem ImageModulo.coeff_mem (image : ImageModulo p q) (i : ℕ) : p.coeff i ∈ m.integral := by
  obtain ⟨P,first,-⟩ := image
  rw [← coeff_toPolynomial,← first,coeff_map]
  exact (P.coeff i).2

theorem ImageModulo.coeff_eq (image : ImageModulo p q) (i : ℕ) : q.coeff i = (p.coeff i : ℚ) := by
  obtain ⟨P,first,second⟩ := image
  rw [← coeff_toPolynomial,← coeff_toPolynomial,← first,← second,coeff_map,coeff_map]
  rfl

end Operations
end Dense

/-- A polynomial over the rational numbers is taken into a prime field as its image there. -/
theorem Poly.changeRing_of_image {m : Modulus} {p : Dense ℚ} {q : Dense (Residue m)}
    (image : Dense.ImageModulo p q) : changeRing ⟨.rationals,p⟩ (.residues m) = .ok ⟨.residues m,q⟩ := by
  have images : List.Forall₂ (fun v c => (BaseRing.residues m).ofValue v = .ok c)
      ((numbers ⟨.rationals,p⟩).map Value.number) (p.coeffs.map fun c : ℚ => (c : Residue m)) := by
    rw [numbers,Dense.numbers,List.map_map,List.forall₂_map_left_iff,List.forall₂_map_right_iff,
      List.forall₂_same]
    intro c member
    obtain ⟨i,found⟩ := List.mem_iff_getElem?.mp member
    have coefficient : p.coeff i = c := by
      rw [Dense.coeff,List.getD_eq_getElem?_getD,found,Option.getD_some]
    exact BaseRing.ofNumber_fraction (coefficient ▸ image.coeff_mem i)
  have same : Dense.ofList (p.coeffs.map fun c : ℚ => (c : Residue m)) = q := by
    apply Dense.toPolynomial_injective
    ext i
    rw [Dense.toPolynomial_ofList,coeff_ofCoeffs,Dense.coeff_toPolynomial,image.coeff_eq,Dense.coeff,
      List.getD_eq_getElem?_getD,List.getElem?_map,List.getD_eq_getElem?_getD]
    cases p.coeffs[i]? <;> simp
  rw [changeRing,ofValues_of_images images]
  exact congrArg (fun d => Except.ok (Poly.mk (.residues m) d)) same

end Bezout

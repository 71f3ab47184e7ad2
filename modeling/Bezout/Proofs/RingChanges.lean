import Bezout.Proofs.Readings
import Bezout.Proofs.RingLaws
import Bezout.Proofs.Roots

/-!
Polynomials taken into a prime field. Over a ring of characteristic zero a polynomial is taken into another
ring as the one over the rational numbers with the values of its coefficients is (`Dense.values`), and the
values go along with all operations. Hence so do the images modulo a prime, as far as there are any.
-/
namespace Bezout
open Polynomial
open Coefficient (number)

namespace Dense

/-! ### Values -/

section Values
variable {s : BaseRing}

/-- A polynomial over a ring of characteristic zero as one over the rational numbers. -/
def values (p : Dense s.Elem) : Dense ℚ := ofList (p.coeffs.map fun a => (number a).value)

variable (takes : s.TakesNumbers) (characteristic : s.characteristic = 0)
include takes characteristic

theorem toPolynomial_values (p : Dense s.Elem) :
    p.values.toPolynomial = p.toPolynomial.map (s.valueHom takes characteristic) := by
  rw [values,toPolynomial_ofList]
  exact ofCoeffs_map (s.valueHom takes characteristic) p.coeffs

theorem coeffs_values (p : Dense s.Elem) : p.values.coeffs = p.coeffs.map fun a => (number a).value := by
  apply strip_of_getLast?
  rw [List.getLast?_map]
  intro zero
  obtain ⟨a,last,vanishes⟩ := Option.map_eq_some_iff.mp zero
  have none : a = 0 := BaseRing.valueHom_injective takes characteristic (vanishes.trans (map_zero _).symm)
  exact p.stripped (none ▸ last)

theorem values_one : (1 : Dense s.Elem).values = 1 :=
  toPolynomial_injective (by simp [toPolynomial_values takes characteristic])

theorem values_add (p q : Dense s.Elem) : (p + q).values = p.values + q.values :=
  toPolynomial_injective (by simp [toPolynomial_values takes characteristic])

theorem values_neg (p : Dense s.Elem) : (-p).values = -p.values :=
  toPolynomial_injective (by simp [toPolynomial_values takes characteristic])

theorem values_sub (p q : Dense s.Elem) : (p - q).values = p.values - q.values :=
  toPolynomial_injective (by simp [toPolynomial_values takes characteristic])

theorem values_mul (p q : Dense s.Elem) : (p * q).values = p.values * q.values :=
  toPolynomial_injective (by simp [toPolynomial_values takes characteristic])

theorem values_pow (p : Dense s.Elem) (n : ℕ) : (p ^ n).values = p.values.pow n :=
  toPolynomial_injective (by simp [toPolynomial_values takes characteristic])

theorem values_derivative (p : Dense s.Elem) : p.derivative.values = p.values.derivative :=
  toPolynomial_injective (by simp [toPolynomial_values takes characteristic,derivative_map])

theorem eval_values (p : Dense s.Elem) (a : s.Elem) :
    p.values.eval (number a).value = (number (p.eval a)).value := by
  rw [← eval_toPolynomial,toPolynomial_values takes characteristic,← eval_toPolynomial]
  exact eval_map_apply (s.valueHom takes characteristic) a

end Values

/-! ### Images -/

section Images
variable {m : Modulus} {p : Dense ℚ} {q : Dense (Residue m)}

theorem ImageModulo.one : ImageModulo (1 : Dense ℚ) (1 : Dense (Residue m)) := ⟨1,by simp,by simp⟩

theorem ImageModulo.derivative (image : ImageModulo p q) : ImageModulo p.derivative q.derivative := by
  obtain ⟨P,first,second⟩ := image
  exact ⟨P.derivative,by simp [← derivative_map,first],by simp [← derivative_map,second]⟩

/-- The value at a rational number that has a residue has one, which is the value of the image there. -/
theorem ImageModulo.eval (image : ImageModulo p q) (x : m.integral) :
    ∃ y : m.integral, p.eval (x : ℚ) = y ∧ q.eval (m.reduce x) = m.reduce y := by
  obtain ⟨P,first,second⟩ := image
  refine ⟨P.eval x,?_,?_⟩
  · rw [← eval_toPolynomial,← first]
    exact eval_map_apply m.integral.subtype x
  · rw [← eval_toPolynomial,← second]
    exact eval_map_apply m.reduce x

/-- A polynomial whose coefficients have residues has an image. -/
theorem exists_image (integral : ∀ c ∈ p.coeffs, c ∈ m.integral) : ∃ q, ImageModulo (m := m) p q := by
  have lifted : p.toPolynomial ∈ lifts m.integral.subtype := by
    rw [lifts_iff_coeff_lifts]
    intro i
    rw [coeff_toPolynomial,coeff,List.getD_eq_getElem?_getD]
    cases found : p.coeffs[i]? with
    | none => exact ⟨0,rfl⟩
    | some c => exact ⟨⟨c,integral c (List.mem_of_getElem? found)⟩,rfl⟩
  obtain ⟨P,same⟩ := (mem_lifts _).mp lifted
  obtain ⟨q,image⟩ := toPolynomial_surjective (P.map m.reduce)
  exact ⟨q,P,same,image.symm⟩

end Images
end Dense

/-! ### Ring changes -/

namespace BaseRing

/-- What a ring of characteristic zero takes in has the value of the element that it is taken for. -/
theorem exactNumber_of_ofValue {s : BaseRing} (takes : s.TakesNumbers) (characteristic : s.characteristic = 0)
    {v : Value} {a : s.Elem} (taken : s.ofValue v = .ok a) :
    ∃ n, v.exactNumber? = some n ∧ n.value = (number a).value := by
  cases exact : v.exactNumber? with
  | none => cases s <;> simp [ofValue,exact] at taken
  | some n =>
    rw [ofValue_of_exactNumber exact,← ofNumber_value] at taken
    refine ⟨n,rfl,?_⟩
    cases s with
    | integers =>
      rw [ofNumber] at taken
      split at taken
      · rename_i whole
        cases taken
        exact ((Rat.den_eq_one_iff _).mp whole).symm
      · cases taken
    | rationals => exact Except.ok.inj taken
    | residues m => exact absurd characteristic m.pos.ne'
    | bare c mark => exact takes.elim

/-- A number that has a residue is taken into the residues as that. -/
theorem ofNumber_integral {m : Modulus} {n : Number} {x : m.integral} (value : n.value = x) :
    (residues m).ofNumber n = .ok (m.reduce x) := by
  rw [← ofNumber_value,value]
  exact ofNumber_fraction x.2

end BaseRing

namespace Poly

/-- The number that stands for the value at an element. -/
def valueAt (p : Poly) (v : Value) : Except Fault Number := (p.eval v).map number

theorem valueAt_eq {r : BaseRing} {v : Value} {a : r.Elem} (taken : r.ofValue v = .ok a) (p : Dense r.Elem) :
    valueAt ⟨r,p⟩ v = .ok (number (p.eval a)) := by
  rw [valueAt,eval_eq taken]
  rfl

/-- Taking polynomials into a ring goes along with all operations on them, which end with a result. -/
structure RespectsOperations (r : BaseRing) (p q : Poly) (exponent : ℕ) (v : Value) : Prop where
  zero : (zero p.ring).changeRing r = .ok (zero r)
  one : SameResult (do (← one p.ring).changeRing r) (one r)
  add : SameResult (do (← p.add q).changeRing r) (do (← p.changeRing r).add (← q.changeRing r))
  sub : SameResult (do (← p.sub q).changeRing r) (do (← p.changeRing r).sub (← q.changeRing r))
  mul : SameResult (do (← p.mul q).changeRing r) (do (← p.changeRing r).mul (← q.changeRing r))
  neg : SameResult (p.neg.changeRing r) (do return (← p.changeRing r).neg)
  pow : SameResult (do (← p.pow (.integer exponent)).changeRing r)
    (do (← p.changeRing r).pow (.integer exponent))
  derivative : SameResult (p.derivative.changeRing r) (do return (← p.changeRing r).derivative)
  valueAt : ∃ y : r.Elem, (do r.ofValue (.number (← p.valueAt v))) = .ok y ∧
    (do (← p.changeRing r).valueAt v) = .ok (number y)

section Results
variable {r : BaseRing} {p q t p' q' t' : Poly}

theorem SameResult.unary (op : Poly → Except Fault Poly) (moved : p.changeRing r = .ok p')
    (here : op p = .ok t) (there : op p' = .ok t') (image : t.changeRing r = .ok t') :
    SameResult (do (← op p).changeRing r) (do op (← p.changeRing r)) :=
  ⟨t',by rw [here]; exact image,by rw [moved]; exact there⟩

theorem SameResult.binary {op : Poly → Poly → Except Fault Poly} (moved : p.changeRing r = .ok p')
    (moved' : q.changeRing r = .ok q') (here : op p q = .ok t) (there : op p' q' = .ok t')
    (image : t.changeRing r = .ok t') :
    SameResult (do (← op p q).changeRing r) (do op (← p.changeRing r) (← q.changeRing r)) :=
  ⟨t',by rw [here]; exact image,by rw [moved,moved']; exact there⟩

end Results

section Changes
variable {s : BaseRing} (takes : s.TakesNumbers) (characteristic : s.characteristic = 0)
include takes characteristic

/-- A polynomial over a ring of characteristic zero is taken into another ring as its values are. -/
theorem changeRing_values (p : Dense s.Elem) (r : BaseRing) :
    changeRing ⟨.rationals,p.values⟩ r = changeRing ⟨s,p⟩ r := by
  have values : (numbers ⟨.rationals,p.values⟩).map Value.number =
      (numbers ⟨s,p⟩).map fun n => Value.fraction n.value := by
    rw [numbers,numbers,Dense.numbers,Dense.numbers,Dense.coeffs_values takes characteristic,List.map_map,
      List.map_map,List.map_map]
    rfl
  have taken : r.ofValue ∘ (fun n : Number => Value.fraction n.value) = r.ofValue ∘ Value.number := by
    funext n
    exact (BaseRing.ofValue_of_exactNumber rfl r).trans
      ((r.ofNumber_value n).trans (BaseRing.ofValue_of_exactNumber rfl r).symm)
  rw [changeRing,changeRing,ofValues,ofValues,values,List.mapM_map,List.mapM_map,taken]

theorem changeRing_rationals_values (p : Dense s.Elem) :
    changeRing ⟨s,p⟩ .rationals = .ok ⟨.rationals,p.values⟩ := by
  rw [← changeRing_values takes characteristic]
  exact ofValues_numbers (r := .rationals) trivial p.values

/-- A polynomial that is taken into the rational numbers can be taken back. -/
theorem changeRing_back (p : Dense s.Elem) :
    (do (← changeRing ⟨s,p⟩ .rationals).changeRing s) = .ok ⟨s,p⟩ := by
  rw [changeRing_rationals_values takes characteristic]
  exact (changeRing_values takes characteristic p s).trans (ofValues_numbers takes p)

variable {m : Modulus}

theorem changeRing_of_values_image {p : Dense s.Elem} {q : Dense (Residue m)}
    (image : Dense.ImageModulo p.values q) : changeRing ⟨s,p⟩ (.residues m) = .ok ⟨.residues m,q⟩ := by
  rw [← changeRing_values takes characteristic]
  exact changeRing_of_image image

/-- Polynomials with images: those of the results are the results with the images. -/
theorem respectsOperations_of_images {p q : Dense s.Elem} {p' q' : Dense (Residue m)}
    (image : Dense.ImageModulo p.values p') (image' : Dense.ImageModulo q.values q') (exponent : ℕ)
    {v : Value} {a : s.Elem} (taken : s.ofValue v = .ok a) (integral : (number a).value ∈ m.integral) :
    RespectsOperations (.residues m) ⟨s,p⟩ ⟨s,q⟩ exponent v := by
  have through {t : Dense s.Elem} {t' : Dense (Residue m)} (image : Dense.ImageModulo t.values t') :
      changeRing ⟨s,t⟩ (.residues m) = .ok ⟨.residues m,t'⟩ :=
    changeRing_of_values_image takes characteristic image
  have moved := through image
  have moved' := through image'
  have taken' : (BaseRing.residues m).ofValue v = .ok (m.reduce ⟨_,integral⟩) := by
    obtain ⟨n,exact,value⟩ := BaseRing.exactNumber_of_ofValue takes characteristic taken
    rw [BaseRing.ofValue_of_exactNumber exact]
    exact BaseRing.ofNumber_integral value
  obtain ⟨y,here,there⟩ := image.eval ⟨_,integral⟩
  rw [Dense.eval_values takes characteristic] at here
  -- For each operation the values of the result are the result of the values, and so are the images.
  exact {
    zero := rfl
    one := ⟨_,by rw [one_eq takes]; exact through (by rw [Dense.values_one takes characteristic]; exact .one),
      one_eq (r := .residues m) trivial⟩
    add := .binary moved moved' (add_eq p q) (add_eq (r := .residues m) p' q')
      (through (by rw [Dense.values_add takes characteristic]; exact image.add image'))
    sub := .binary moved moved' (sub_eq p q) (sub_eq (r := .residues m) p' q')
      (through (by rw [Dense.values_sub takes characteristic]; exact image.sub image'))
    mul := .binary moved moved' (mul_eq p q) (mul_eq (r := .residues m) p' q')
      (through (by rw [Dense.values_mul takes characteristic]; exact image.mul image'))
    neg := .unary (fun p => .ok p.neg) moved rfl rfl
      (through (by rw [Dense.values_neg takes characteristic]; exact image.neg))
    pow := .unary (fun p => p.pow (.integer exponent)) moved (pow_eq takes p exponent)
      (pow_eq (r := .residues m) trivial p' exponent)
      (through (by rw [Dense.values_pow takes characteristic]; exact image.pow exponent))
    derivative := .unary (fun p => .ok p.derivative) moved rfl rfl
      (through (by rw [Dense.values_derivative takes characteristic]; exact image.derivative))
    valueAt := ⟨m.reduce y,
      by rw [valueAt_eq taken]; exact BaseRing.ofNumber_integral here,
      by rw [moved,← there]; exact valueAt_eq taken' p'⟩
  }

theorem respectsOperations_residues {p q : Dense s.Elem}
    (integral : ∀ c ∈ p.coeffs, (number c).value ∈ m.integral)
    (integral' : ∀ c ∈ q.coeffs, (number c).value ∈ m.integral) (exponent : ℕ) {v : Value} {a : s.Elem}
    (taken : s.ofValue v = .ok a) (point : (number a).value ∈ m.integral) :
    RespectsOperations (.residues m) ⟨s,p⟩ ⟨s,q⟩ exponent v := by
  have exists_image {t : Dense s.Elem} (integral : ∀ c ∈ t.coeffs, (number c).value ∈ m.integral) :
      ∃ t', Dense.ImageModulo (m := m) t.values t' := by
    apply Dense.exists_image
    rw [Dense.coeffs_values takes characteristic,List.forall_mem_map]
    exact integral
  obtain ⟨p',image⟩ := exists_image integral
  obtain ⟨q',image'⟩ := exists_image integral'
  exact respectsOperations_of_images takes characteristic image image' exponent taken point

end Changes

/-- A polynomial over the rational numbers is refused exactly for a coefficient outside the ring. -/
theorem changeRing_refused {r : BaseRing} (takes : r.TakesNumbers) (p : Dense ℚ) :
    ((∃ fault, changeRing ⟨.rationals,p⟩ r = .error fault) ↔ ∃ c ∈ p.coeffs, ¬ r.Admits c) ∧
      ∀ fault, changeRing ⟨.rationals,p⟩ r = .error fault →
        ∃ c ∈ p.coeffs, ¬ r.Admits c ∧ fault = r.refusal c := by
  rcases changeRing_cases takes p with ⟨q,moved,admitted⟩ | ⟨c,member,outside,refused⟩
  · rw [moved]
    refine ⟨⟨?_,?_⟩,?_⟩
    · rintro ⟨fault,failed⟩
      cases failed
    · rintro ⟨c,member,outside⟩
      exact absurd (admitted c member) outside
    · intro fault failed
      cases failed
  · rw [refused]
    refine ⟨⟨fun _ => ⟨c,member,outside⟩,fun _ => ⟨_,rfl⟩⟩,?_⟩
    intro fault same
    exact ⟨c,member,outside,(Except.error.inj same).symm⟩

/-- Taking polynomials into a prime field goes along with all operations, over the integers and over the
    rational numbers without a denominator that the prime divides, and it fails exactly for a coefficient
    with such a denominator. From the integers into the rational numbers and back nothing changes. -/
theorem changeRing_total_correct (m : Modulus) (exponent : ℕ) (v : Value) :
    (∀ (p q : Dense BaseRing.integers.Elem) (x : ℤ), BaseRing.integers.ofValue v = .ok x →
      RespectsOperations (.residues m) ⟨.integers,p⟩ ⟨.integers,q⟩ exponent v) ∧
    (∀ (p q : Dense BaseRing.rationals.Elem) (x : ℚ), BaseRing.rationals.ofValue v = .ok x →
      (∀ c ∈ p.coeffs, ¬ m.value ∣ c.den) → (∀ c ∈ q.coeffs, ¬ m.value ∣ c.den) → ¬ m.value ∣ x.den →
      RespectsOperations (.residues m) ⟨.rationals,p⟩ ⟨.rationals,q⟩ exponent v) ∧
    (∀ p : Dense BaseRing.rationals.Elem,
      ((∃ fault, changeRing ⟨.rationals,p⟩ (.residues m) = .error fault) ↔
        ∃ c ∈ p.coeffs, m.value ∣ c.den) ∧
      ∀ fault, changeRing ⟨.rationals,p⟩ (.residues m) = .error fault →
        ∃ c ∈ p.coeffs, m.value ∣ c.den ∧ fault = .noImage c (.residues m)) ∧
    ∀ p : Dense BaseRing.integers.Elem,
      (do (← changeRing ⟨.integers,p⟩ .rationals).changeRing .integers) = .ok ⟨.integers,p⟩ := by
  refine ⟨fun p q x taken => ?_,fun p q x taken integral integral' point => ?_,fun p => ?_,
    changeRing_back (s := .integers) trivial rfl⟩
  · have whole (n : ℤ) : (n : ℚ) ∈ m.integral := intCast_mem m.integral n
    exact respectsOperations_residues (s := .integers) trivial rfl (fun c _ => whole c) (fun c _ => whole c)
      exponent taken (whole x)
  · exact respectsOperations_residues (s := .rationals) trivial rfl integral integral' exponent taken point
  · simpa [BaseRing.Admits,BaseRing.refusal] using changeRing_refused (r := .residues m) trivial p

/-- Modulo three, where the leading coefficient of one polynomial vanishes and another has no image. -/
theorem changeRing_mod_three :
    let three : Modulus := ⟨3,(isPrime_iff 3).mpr Nat.prime_three⟩
    let p : Dense BaseRing.integers.Elem := ⟨[1,3],by decide⟩
    let q : Dense BaseRing.rationals.Elem := ⟨[1,1 / 2],by decide +kernel⟩
    let s : Dense BaseRing.rationals.Elem := ⟨[1,1 / 3],by decide +kernel⟩
    RespectsOperations (.residues three) ⟨.integers,p⟩ ⟨.integers,p⟩ 2 (.integer 5) ∧
      RespectsOperations (.residues three) ⟨.rationals,q⟩ ⟨.rationals,q⟩ 2 (.fraction (1 / 4)) ∧
      ∃ fault, changeRing ⟨.rationals,s⟩ (.residues three) = .error fault := by
  intro three p q s
  obtain ⟨whole,-,-,-⟩ := changeRing_total_correct three 2 (.integer 5)
  obtain ⟨-,fractional,refused,-⟩ := changeRing_total_correct three 2 (.fraction (1 / 4))
  have integral : ∀ c ∈ q.coeffs, ¬ three.value ∣ c.den := by decide +kernel
  exact ⟨whole p p 5 rfl,fractional q q (1 / 4) rfl integral integral (by decide +kernel),
    (refused s).1.mpr ⟨1 / 3,by simp [s],by decide +kernel⟩⟩

end Poly
end Bezout

import Bezout.Proofs.Coefficients
import Bezout.Dense

/-!
Dense polynomials as polynomials in the sense of algebra. `toPolynomial` is an isomorphism
onto the polynomials over the coefficients, so that dense polynomials are an integral domain, and
size and leading coefficient are read off the degree.
-/
namespace Bezout
open Polynomial

/-! ### Coefficient lists -/

section Lists
variable {R : Type} [CoefficientDomain R]

/-- The polynomial with a list of coefficients, lowest first. -/
noncomputable def ofCoeffs : List R → R[X]
  | [] => 0
  | c :: rest => C c + X * ofCoeffs rest

theorem coeff_ofCoeffs (cs : List R) (i : ℕ) : (ofCoeffs cs).coeff i = cs.getD i 0 := by
  induction cs generalizing i with
  | nil => simp [ofCoeffs]
  | cons c rest ih =>
    rw [ofCoeffs]
    cases i with
    | zero => simp
    | succ i => simp [ih]

/-- The images of coefficients are the coefficients of the image. -/
theorem ofCoeffs_map {S : Type} [CoefficientDomain S] (f : R →+* S) (cs : List R) :
    ofCoeffs (cs.map f) = (ofCoeffs cs).map f := by
  induction cs with
  | nil => simp [ofCoeffs]
  | cons c rest ih => simp [ofCoeffs,ih]

theorem ofCoeffs_eq_zero_iff {cs : List R} : ofCoeffs cs = 0 ↔ ∀ c ∈ cs, c = 0 := by
  constructor
  · intro zero c member
    obtain ⟨i,found⟩ := List.mem_iff_getElem?.mp member
    have vanishes := coeff_ofCoeffs cs i
    rwa [zero,coeff_zero,List.getD_eq_getElem?_getD,found,Option.getD_some,eq_comm] at vanishes
  · intro vanish
    ext i
    rw [coeff_ofCoeffs,List.getD_eq_getElem?_getD,coeff_zero]
    cases found : cs[i]? with
    | none => rfl
    | some c => exact vanish c (List.mem_of_getElem? found)

/-- Stripping keeps the polynomial: the zeros at the end add nothing. -/
theorem ofCoeffs_strip (cs : List R) : ofCoeffs (strip cs) = ofCoeffs cs := by
  induction cs with
  | nil => rfl
  | cons c rest ih =>
    rw [strip,ofCoeffs,← ih]
    split
    · rename_i nothing
      rw [nothing]
      split
      · rename_i zero
        simp [ofCoeffs,zero]
      · simp [ofCoeffs]
    · rfl

theorem strip_eq_nil {cs : List R} (zero : ofCoeffs cs = 0) : strip cs = [] := by
  by_contra kept
  obtain ⟨c,last⟩ := Option.ne_none_iff_exists'.mp (mt List.getLast?_eq_none_iff.mp kept)
  have vanishes : (strip cs).getD ((strip cs).length - 1) 0 = 0 := by
    rw [← coeff_ofCoeffs,ofCoeffs_strip,zero,coeff_zero]
  rw [List.getD_eq_getElem?_getD,← List.getLast?_eq_getElem?,last] at vanishes
  exact strip_getLast? cs (last.trans (congrArg some vanishes))

/-- Two lists with one polynomial are the same once they are stripped. -/
theorem strip_eq_of_ofCoeffs_eq {cs ds : List R} (same : ofCoeffs cs = ofCoeffs ds) :
    strip cs = strip ds := by
  induction cs generalizing ds with
  | nil => exact (strip_eq_nil same.symm).symm
  | cons c rest ih =>
    cases ds with
    | nil => exact strip_eq_nil same
    | cons d more =>
      have heads : c = d := by
        have lowest := congrArg (coeff · 0) same
        simpa [ofCoeffs] using lowest
      have tails : ofCoeffs rest = ofCoeffs more := by
        subst heads
        exact mul_left_cancel₀ X_ne_zero (add_left_cancel same)
      rw [strip,strip,ih tails,heads]

theorem strip_of_getLast? {cs : List R} (stripped : cs.getLast? ≠ some 0) : strip cs = cs := by
  induction cs with
  | nil => rfl
  | cons c rest ih =>
    cases rest with
    | nil => simpa [strip] using stripped
    | cons d more =>
      have kept := ih (by simpa using stripped)
      rw [strip,kept]

theorem ofCoeffs_addCoeffs (cs ds : List R) :
    ofCoeffs (Dense.addCoeffs cs ds) = ofCoeffs cs + ofCoeffs ds := by
  induction cs generalizing ds with
  | nil => simp [Dense.addCoeffs,ofCoeffs]
  | cons c rest ih =>
    cases ds with
    | nil => simp [Dense.addCoeffs,ofCoeffs]
    | cons d more =>
      simp only [Dense.addCoeffs,ofCoeffs,ih,C_add]
      ring

theorem ofCoeffs_map_neg (cs : List R) : ofCoeffs (cs.map (- ·)) = -ofCoeffs cs := by
  induction cs with
  | nil => simp [ofCoeffs]
  | cons c rest ih =>
    simp only [List.map_cons,ofCoeffs,ih,C_neg]
    ring

theorem ofCoeffs_map_mul (a : R) (cs : List R) : ofCoeffs (cs.map (a * ·)) = C a * ofCoeffs cs := by
  induction cs with
  | nil => simp [ofCoeffs]
  | cons c rest ih =>
    simp only [List.map_cons,ofCoeffs,ih,C_mul]
    ring

theorem ofCoeffs_mulCoeffs (cs ds : List R) :
    ofCoeffs (Dense.mulCoeffs cs ds) = ofCoeffs cs * ofCoeffs ds := by
  induction cs with
  | nil => simp [Dense.mulCoeffs,ofCoeffs]
  | cons c rest ih =>
    have later : ofCoeffs (0 :: Dense.mulCoeffs rest ds) = X * (ofCoeffs rest * ofCoeffs ds) := by
      simp [ofCoeffs,ih]
    rw [Dense.mulCoeffs]
    split
    · rename_i zero
      rw [later,zero,ofCoeffs,C_0]
      ring
    · rw [ofCoeffs_addCoeffs,ofCoeffs_map_mul,later,ofCoeffs]
      ring

theorem ofCoeffs_replicate_append (n : ℕ) (cs : List R) :
    ofCoeffs (List.replicate n 0 ++ cs) = X ^ n * ofCoeffs cs := by
  induction n with
  | zero => simp
  | succ n ih =>
    rw [List.replicate_succ,List.cons_append,ofCoeffs,ih,C_0]
    ring

/-- The coefficients of the derivative of a list that starts at power `n`. -/
theorem getD_derivativeCoeffs (n : ℕ) (cs : List R) (i : ℕ) :
    (Dense.derivativeCoeffs n cs).getD i 0 = ((n + i : ℕ) : R) * cs.getD i 0 := by
  induction cs generalizing n i with
  | nil => simp [Dense.derivativeCoeffs]
  | cons c rest ih =>
    rw [Dense.derivativeCoeffs]
    cases i with
    | zero => simp [CoefficientDomain.ofInt_eq]
    | succ i =>
      rw [List.getD_cons_succ,List.getD_cons_succ,ih,add_right_comm,add_assoc]

end Lists

namespace Dense
variable {R : Type} [CoefficientDomain R]

/-! ### The isomorphism -/

/-- The polynomial with the coefficients of a dense polynomial. -/
noncomputable def toPolynomial (p : Dense R) : R[X] := ofCoeffs p.coeffs

@[simp] theorem coeff_toPolynomial (p : Dense R) (i : ℕ) : p.toPolynomial.coeff i = p.coeff i :=
  coeff_ofCoeffs p.coeffs i

@[simp] theorem toPolynomial_ofList (cs : List R) : (ofList cs).toPolynomial = ofCoeffs cs :=
  ofCoeffs_strip cs

theorem toPolynomial_injective : Function.Injective (toPolynomial (R := R)) := by
  intro p q same
  have coefficients := strip_eq_of_ofCoeffs_eq same
  rw [strip_of_getLast? p.stripped,strip_of_getLast? q.stripped] at coefficients
  exact Dense.ext coefficients

theorem toPolynomial_surjective : Function.Surjective (toPolynomial (R := R)) := by
  intro P
  refine ⟨ofList ((List.range (P.natDegree + 1)).map P.coeff),?_⟩
  ext i
  rw [toPolynomial_ofList,coeff_ofCoeffs]
  by_cases inside : i < P.natDegree + 1
  · simp [List.getD_eq_getElem?_getD,inside]
  · rw [coeff_eq_zero_of_natDegree_lt (by omega),List.getD_eq_getElem?_getD]
    have short : ((List.range (P.natDegree + 1)).map P.coeff).length ≤ i := by
      rw [List.length_map,List.length_range]
      omega
    rw [List.getElem?_eq_none short,Option.getD_none]

@[simp] theorem toPolynomial_zero : (0 : Dense R).toPolynomial = 0 := rfl
@[simp] theorem toPolynomial_constant (c : R) : (constant c).toPolynomial = C c := by
  simp [constant,ofCoeffs]
@[simp] theorem toPolynomial_one : (1 : Dense R).toPolynomial = 1 := toPolynomial_constant 1
@[simp] theorem toPolynomial_monomial (c : R) (n : ℕ) :
    (Dense.monomial c n).toPolynomial = C c * X ^ n := by
  rw [Dense.monomial,toPolynomial_ofList,ofCoeffs_replicate_append,ofCoeffs,ofCoeffs]
  ring
@[simp] theorem toPolynomial_add (p q : Dense R) :
    (p + q).toPolynomial = p.toPolynomial + q.toPolynomial := by
  rw [show p + q = ofList (addCoeffs p.coeffs q.coeffs) from rfl,toPolynomial_ofList,ofCoeffs_addCoeffs]
  rfl
@[simp] theorem toPolynomial_neg (p : Dense R) : (-p).toPolynomial = -p.toPolynomial := by
  rw [show -p = ofList (p.coeffs.map (- ·)) from rfl,toPolynomial_ofList,ofCoeffs_map_neg]
  rfl
@[simp] theorem toPolynomial_sub (p q : Dense R) :
    (p - q).toPolynomial = p.toPolynomial - q.toPolynomial := by
  rw [show p - q = p + -q from rfl,toPolynomial_add,toPolynomial_neg,sub_eq_add_neg]
@[simp] theorem toPolynomial_mul (p q : Dense R) :
    (p * q).toPolynomial = p.toPolynomial * q.toPolynomial := by
  rw [show p * q = ofList (mulCoeffs p.coeffs q.coeffs) from rfl,toPolynomial_ofList,ofCoeffs_mulCoeffs]
  rfl
@[simp] theorem toPolynomial_scale (c : R) (p : Dense R) :
    (p.scale c).toPolynomial = C c * p.toPolynomial := by
  rw [scale,toPolynomial_ofList,ofCoeffs_map_mul]
  rfl
@[simp] theorem toPolynomial_pow (p : Dense R) (n : ℕ) :
    (p.pow n).toPolynomial = p.toPolynomial ^ n := by
  rw [pow,power,← powerFrom_map toPolynomial fun a b => (toPolynomial_mul a b).symm,toPolynomial_one,
    powerFrom_eq,one_mul]

@[simp] theorem toPolynomial_derivative (p : Dense R) :
    p.derivative.toPolynomial = Polynomial.derivative p.toPolynomial := by
  ext i
  rw [derivative,toPolynomial_ofList,coeff_ofCoeffs,getD_derivativeCoeffs,coeff_derivative,
    coeff_toPolynomial,coeff,List.getD_eq_getElem?_getD,List.getElem?_tail,← List.getD_eq_getElem?_getD,
    mul_comm,add_comm 1 i,Nat.cast_succ]

@[simp] theorem eval_toPolynomial (x : R) (p : Dense R) : p.toPolynomial.eval x = p.eval x := by
  rw [toPolynomial,eval]
  induction p.coeffs with
  | nil => simp [ofCoeffs]
  | cons c rest ih =>
    simp only [ofCoeffs,eval_add,eval_mul,eval_C,eval_X,ih,List.foldr_cons]
    ring

instance : CommRing (Dense R) where
  add_assoc p q s := toPolynomial_injective (by simp [add_assoc])
  zero_add p := toPolynomial_injective (by simp)
  add_zero p := toPolynomial_injective (by simp)
  add_comm p q := toPolynomial_injective (by simp [add_comm])
  neg_add_cancel p := toPolynomial_injective (by simp)
  sub_eq_add_neg p q := rfl
  mul_assoc p q s := toPolynomial_injective (by simp [mul_assoc])
  one_mul p := toPolynomial_injective (by simp)
  mul_one p := toPolynomial_injective (by simp)
  mul_comm p q := toPolynomial_injective (by simp [mul_comm])
  zero_mul p := toPolynomial_injective (by simp)
  mul_zero p := toPolynomial_injective (by simp)
  left_distrib p q s := toPolynomial_injective (by simp [mul_add])
  right_distrib p q s := toPolynomial_injective (by simp [add_mul])
  npow n p := p.pow n
  npow_zero p := toPolynomial_injective (by
    show (p.pow 0).toPolynomial = (1 : Dense R).toPolynomial
    simp)
  npow_succ n p := toPolynomial_injective (by
    show (p.pow (n + 1)).toPolynomial = (p.pow n * p).toPolynomial
    simp [pow_succ])
  nsmul := nsmulRec
  zsmul := zsmulRec

@[simp] theorem toPolynomial_npow (p : Dense R) (n : ℕ) :
    (p ^ n).toPolynomial = p.toPolynomial ^ n :=
  toPolynomial_pow p n

/-- Dense polynomials are the polynomials over their coefficients. -/
noncomputable def polynomialEquiv (R : Type) [CoefficientDomain R] : Dense R ≃+* R[X] :=
  { Equiv.ofBijective toPolynomial ⟨toPolynomial_injective,toPolynomial_surjective⟩ with
    map_add' := toPolynomial_add
    map_mul' := toPolynomial_mul }

theorem toPolynomial_prod (ps : List (Dense R)) : ps.prod.toPolynomial = (ps.map toPolynomial).prod :=
  map_list_prod (polynomialEquiv R) ps

instance : IsDomain (Dense R) := (polynomialEquiv R).injective.isDomain (polynomialEquiv R)

theorem toPolynomial_eq_zero_iff {p : Dense R} : p.toPolynomial = 0 ↔ p = 0 :=
  toPolynomial_injective.eq_iff' toPolynomial_zero

theorem scale_eq_mul (c : R) (p : Dense R) : p.scale c = constant c * p :=
  toPolynomial_injective (by simp)

/-! ### Size and leading coefficient -/

theorem lead_eq_coeff (p : Dense R) : p.lead = p.coeff (p.size - 1) := by
  rw [lead,coeff,size,List.getD_eq_getElem?_getD,List.getLast?_eq_getElem?]

theorem coeff_eq_zero {p : Dense R} {i : ℕ} (outside : p.size ≤ i) : p.coeff i = 0 := by
  rw [coeff,List.getD_eq_getElem?_getD,List.getElem?_eq_none outside,Option.getD_none]

@[simp] theorem size_zero : (0 : Dense R).size = 0 := rfl

theorem size_eq_zero_iff {p : Dense R} : p.size = 0 ↔ p = 0 := by
  rw [size,List.length_eq_zero_iff]
  exact ⟨fun none => Dense.ext none,fun zero => congrArg coeffs zero⟩

theorem lead_eq_zero_iff {p : Dense R} : p.lead = 0 ↔ p = 0 := by
  constructor
  · intro zero
    rw [lead] at zero
    cases last : p.coeffs.getLast? with
    | none => exact Dense.ext (List.getLast?_eq_none_iff.mp last)
    | some c =>
      rw [last] at zero
      exact absurd (last.trans (congrArg some zero)) p.stripped
  · rintro rfl
    rfl

theorem ne_zero_of_lead_eq_one {p : Dense R} (monic : p.lead = 1) : p ≠ 0 :=
  mt lead_eq_zero_iff.mpr (by rw [monic]; exact one_ne_zero)

theorem getLast?_coeffs {p : Dense R} (nonzero : p ≠ 0) : p.coeffs.getLast? = some p.lead := by
  have filled : p.coeffs ≠ [] := fun none => nonzero (Dense.ext none)
  rw [lead,List.getLast?_eq_some_getLast filled,Option.getD_some]

/-- The size is the least bound from which on all coefficients vanish. -/
theorem size_le_iff {p : Dense R} {n : ℕ} : p.size ≤ n ↔ p.toPolynomial.degree < n := by
  rw [degree_lt_iff_coeff_zero]
  constructor
  · intro bound i outside
    exact (coeff_toPolynomial p i).trans (coeff_eq_zero (bound.trans outside))
  · intro vanish
    by_contra larger
    have zero : p.lead = 0 := by
      rw [lead_eq_coeff,← coeff_toPolynomial]
      exact vanish _ (by omega)
    rw [lead_eq_zero_iff.mp zero,size_zero] at larger
    omega

theorem natDegree_toPolynomial (p : Dense R) : p.toPolynomial.natDegree = p.size - 1 := by
  by_cases zero : p = 0
  · simp [zero]
  · have nonzero : p.size ≠ 0 := mt size_eq_zero_iff.mp zero
    apply natDegree_eq_of_le_of_coeff_ne_zero
    · rw [natDegree_le_iff_coeff_eq_zero]
      intro i above
      exact (coeff_toPolynomial p i).trans (coeff_eq_zero (by omega))
    · rw [coeff_toPolynomial,← lead_eq_coeff]
      exact mt lead_eq_zero_iff.mp zero

theorem leadingCoeff_toPolynomial (p : Dense R) : p.toPolynomial.leadingCoeff = p.lead := by
  rw [leadingCoeff,natDegree_toPolynomial,coeff_toPolynomial,lead_eq_coeff]

theorem size_eq_natDegree_add_one {p : Dense R} (nonzero : p ≠ 0) :
    p.size = p.toPolynomial.natDegree + 1 := by
  have positive : p.size ≠ 0 := mt size_eq_zero_iff.mp nonzero
  rw [natDegree_toPolynomial]
  omega

theorem lead_monomial (c : R) (n : ℕ) : (Dense.monomial c n).lead = c := by
  rw [← leadingCoeff_toPolynomial,toPolynomial_monomial,leadingCoeff_C_mul_X_pow]

theorem monomial_ne_zero {c : R} (nonzero : c ≠ 0) (n : ℕ) : Dense.monomial c n ≠ 0 :=
  mt lead_eq_zero_iff.mpr (by rwa [lead_monomial])

theorem size_monomial {c : R} (nonzero : c ≠ 0) (n : ℕ) : (Dense.monomial c n).size = n + 1 := by
  rw [size_eq_natDegree_add_one (monomial_ne_zero nonzero n),toPolynomial_monomial,
    natDegree_C_mul_X_pow n c nonzero]

theorem size_mul {p q : Dense R} (hp : p ≠ 0) (hq : q ≠ 0) : (p * q).size = p.size + q.size - 1 := by
  have one : p.size ≠ 0 := mt size_eq_zero_iff.mp hp
  have other : q.size ≠ 0 := mt size_eq_zero_iff.mp hq
  rw [size_eq_natDegree_add_one (mul_ne_zero hp hq),toPolynomial_mul,
    natDegree_mul (mt toPolynomial_eq_zero_iff.mp hp) (mt toPolynomial_eq_zero_iff.mp hq),
    natDegree_toPolynomial,natDegree_toPolynomial]
  omega

theorem constant_ne_zero {c : R} (nonzero : c ≠ 0) : constant c ≠ 0 :=
  mt toPolynomial_eq_zero_iff.mpr (by simpa using nonzero)

/-- Multiplying by an element other than zero leaves nothing to strip. -/
theorem coeffs_scale {c : R} (nonzero : c ≠ 0) (p : Dense R) :
    (p.scale c).coeffs = p.coeffs.map (c * ·) := by
  apply strip_of_getLast?
  rw [List.getLast?_map]
  cases last : p.coeffs.getLast? with
  | none => simp
  | some a =>
    have kept : a ≠ 0 := by
      rintro rfl
      exact p.stripped last
    simp [nonzero,kept]

theorem size_scale {c : R} (nonzero : c ≠ 0) (p : Dense R) : (p.scale c).size = p.size := by
  rw [size,size,coeffs_scale nonzero,List.length_map]

theorem size_add_le {p q : Dense R} {n : ℕ} (hp : p.size ≤ n) (hq : q.size ≤ n) :
    (p + q).size ≤ n := by
  rw [size_le_iff,toPolynomial_add] at *
  exact (degree_add_le _ _).trans_lt (max_lt hp hq)

theorem size_sub_le {p q : Dense R} {n : ℕ} (hp : p.size ≤ n) (hq : q.size ≤ n) :
    (p - q).size ≤ n := by
  rw [size_le_iff,toPolynomial_sub] at *
  exact (degree_sub_le _ _).trans_lt (max_lt hp hq)

theorem size_add_lt_of_lt {p q : Dense R} {n : ℕ} (hp : p.size < n) (hq : q.size < n) :
    (p + q).size < n := by
  have bound : (p + q).size ≤ n - 1 := size_add_le (by omega) (by omega)
  omega

theorem size_sub_lt_of_lt {p q : Dense R} {n : ℕ} (hp : p.size < n) (hq : q.size < n) :
    (p - q).size < n := by
  have bound : (p - q).size ≤ n - 1 := size_sub_le (by omega) (by omega)
  omega

/-- A summand of smaller size leaves the size of a sum to the other one. -/
theorem size_add_of_size_lt {p q : Dense R} (smaller : q.size < p.size) : (p + q).size = p.size := by
  apply le_antisymm (size_add_le le_rfl smaller.le)
  by_contra shrinks
  have rest : p.size ≤ p.size - 1 := by
    calc p.size = (p + q - q).size := by rw [add_sub_cancel_right]
      _ ≤ p.size - 1 := size_sub_le (by omega) (by omega)
  omega

/-- A difference is smaller than two polynomials of one size with one leading coefficient. -/
theorem size_sub_lt {p q : Dense R} (nonzero : p ≠ 0) (sizes : q.size = p.size)
    (leads : q.lead = p.lead) : (p - q).size < p.size := by
  have positive : p.size ≠ 0 := mt size_eq_zero_iff.mp nonzero
  suffices bound : (p - q).size ≤ p.size - 1 by omega
  rw [size_le_iff,degree_lt_iff_coeff_zero]
  intro i above
  rw [toPolynomial_sub,coeff_sub,coeff_toPolynomial,coeff_toPolynomial]
  rcases above.eq_or_lt with rfl | later
  · rw [← lead_eq_coeff,← sizes,← lead_eq_coeff,leads,sub_self]
  · rw [coeff_eq_zero (by omega),coeff_eq_zero (by omega),sub_self]

theorem lead_mul (p q : Dense R) : (p * q).lead = p.lead * q.lead := by
  rw [← leadingCoeff_toPolynomial,toPolynomial_mul,leadingCoeff_mul,leadingCoeff_toPolynomial,
    leadingCoeff_toPolynomial]

theorem lead_scale (c : R) (p : Dense R) : (p.scale c).lead = c * p.lead := by
  rw [← leadingCoeff_toPolynomial,toPolynomial_scale,leadingCoeff_mul,leadingCoeff_C,
    leadingCoeff_toPolynomial]

end Dense
end Bezout

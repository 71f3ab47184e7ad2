import Bezout.Proofs.Polynomials
import Bezout.PolyArithmetic

/-!
Reckoning with polynomials over one ring: the operations on polynomials that carry their ring are
the operations on dense polynomials, and they fail only over rings that take in no numbers.
-/
namespace Bezout

/-- A list is gone through without a fault if each of its elements has an image. -/
theorem mapM_eq_ok {α β ε : Type} {f : α → Except ε β} {as : List α} {bs : List β}
    (images : List.Forall₂ (fun a b => f a = .ok b) as bs) : as.mapM f = .ok bs := by
  induction images with
  | nil => rfl
  | cons image _ ih =>
    rw [List.mapM_cons,image,ih]
    rfl

/-- A list is gone through to its end, or up to an element without an image. -/
theorem mapM_cases {α β ε : Type} (f : α → Except ε β) (as : List α) :
    (∃ bs, as.mapM f = .ok bs ∧ ∀ a ∈ as, ∃ b, f a = .ok b) ∨
      ∃ a ∈ as, ∃ e, f a = .error e ∧ as.mapM f = .error e := by
  induction as with
  | nil => exact .inl ⟨[],rfl,nofun⟩
  | cons a rest ih =>
    rw [List.mapM_cons]
    cases image : f a with
    | error e => exact .inr ⟨a,List.mem_cons_self,e,image,rfl⟩
    | ok b =>
      rcases ih with ⟨bs,through,images⟩ | ⟨c,member,e,failed,ended⟩
      · refine .inl ⟨b :: bs,by rw [through]; rfl,?_⟩
        rw [List.forall_mem_cons]
        exact ⟨⟨b,image⟩,images⟩
      · exact .inr ⟨c,List.mem_cons_of_mem a member,e,failed,by rw [ended]; rfl⟩

namespace Poly
variable {r : BaseRing}

open Coefficient (number)

theorem isZero_iff {p : Dense r.Elem} : isZero ⟨r,p⟩ = true ↔ p = 0 :=
  beq_iff_eq.trans Dense.size_eq_zero_iff

@[simp] theorem lead_eq (p : Dense r.Elem) : lead ⟨r,p⟩ = number p.lead := rfl

theorem isConstant_iff {p : Dense r.Elem} : isConstant ⟨r,p⟩ = true ↔ p.size ≤ 1 := decide_eq_true_iff

theorem degree_eq (p : Dense r.Elem) : degree ⟨r,p⟩ = (p.size : ℤ) - 1 := rfl

@[simp] theorem operand_eq (p : Dense r.Elem) : operand r ⟨r,p⟩ = .ok p := by
  simp [operand]

@[simp] theorem add_eq (p q : Dense r.Elem) : add ⟨r,p⟩ ⟨r,q⟩ = .ok ⟨r,p + q⟩ := by
  simp [add,Except.map]

@[simp] theorem mul_eq (p q : Dense r.Elem) : mul ⟨r,p⟩ ⟨r,q⟩ = .ok ⟨r,p * q⟩ := by
  simp [mul,Except.map]

@[simp] theorem sub_eq (p q : Dense r.Elem) : sub ⟨r,p⟩ ⟨r,q⟩ = .ok ⟨r,p - q⟩ := by
  simp [sub,Except.map]

theorem derivative_eq (p : Dense r.Elem) : derivative ⟨r,p⟩ = ⟨r,p.derivative⟩ := rfl

theorem ofValues_of_images {vs : List Value} {cs : List r.Elem}
    (images : List.Forall₂ (fun v c => r.ofValue v = .ok c) vs cs) :
    ofValues vs r = .ok ⟨r,Dense.ofList cs⟩ := by
  rw [ofValues,mapM_eq_ok images]
  rfl

theorem constant_eq {v : Value} {c : r.Elem} (image : r.ofValue v = .ok c) :
    constant v r = .ok ⟨r,Dense.constant c⟩ :=
  ofValues_of_images (.cons image .nil)

theorem constant_integer (takes : r.TakesNumbers) (n : ℤ) :
    constant (.integer n) r = .ok ⟨r,Dense.constant (n : r.Elem)⟩ :=
  constant_eq (BaseRing.ofValue_integer takes n)

theorem zero_eq (takes : r.TakesNumbers) : constant (.integer 0) r = .ok ⟨r,0⟩ := by
  rw [constant_integer takes]
  congr 2
  exact Dense.toPolynomial_injective (by simp)

theorem one_eq (takes : r.TakesNumbers) : one r = .ok ⟨r,1⟩ := by
  rw [one,constant_integer takes,Int.cast_one]
  rfl

theorem pow_eq (takes : r.TakesNumbers) (p : Dense r.Elem) (n : ℕ) :
    pow ⟨r,p⟩ (.integer n) = .ok ⟨r,p ^ n⟩ := by
  have counted : ¬ (n : ℤ) < 0 := by omega
  simp only [pow,Value.exactNumber?]
  rw [if_neg counted,one_eq takes]
  rfl

theorem indeterminate_eq (takes : r.TakesNumbers) : indeterminate r = .ok ⟨r,Dense.monomial 1 1⟩ := by
  have zero := BaseRing.ofValue_integer takes 0
  have image := BaseRing.ofValue_integer takes 1
  rw [Int.cast_zero] at zero
  rw [Int.cast_one] at image
  simp [indeterminate,monomial,ofValues,zero,image,Except.map]
  rfl

/-- Over a field the leading coefficient of any polynomial but zero can be divided by. -/
theorem monic_eq (field : r.isField = true) {p : Dense r.Elem} {inverse : r.Elem}
    (found : Coefficient.inverse? p.lead = some inverse) : monic ⟨r,p⟩ = .ok ⟨r,p.scale inverse⟩ := by
  simp only [monic]
  rw [if_pos field,found]

theorem scale_eq {v : Value} {c : r.Elem} (image : r.ofValue v = .ok c) (p : Dense r.Elem) :
    scale ⟨r,p⟩ v = .ok ⟨r,p.scale c⟩ := by
  rw [scale,image]
  rfl

theorem scale_number (takes : r.TakesNumbers) (p : Dense r.Elem) (c : r.Elem) :
    scale ⟨r,p⟩ (.number (number c)) = .ok ⟨r,p.scale c⟩ :=
  scale_eq (BaseRing.ofValue_number takes c) p

/-- The numbers of a polynomial are taken back into its ring. -/
theorem ofValues_numbers (takes : r.TakesNumbers) (p : Dense r.Elem) :
    ofValues (p.numbers.map Value.number) r = .ok ⟨r,p⟩ := by
  have images : List.Forall₂ (fun v c => r.ofValue v = .ok c) (p.numbers.map Value.number) p.coeffs := by
    rw [Dense.numbers,List.map_map,List.forall₂_map_left_iff,List.forall₂_same]
    exact fun a _ => BaseRing.ofValue_number takes a
  have kept : Dense.ofList p.coeffs = p := Dense.ext (strip_of_getLast? p.stripped)
  rw [ofValues_of_images images,kept]

/-- A polynomial is taken into another ring as the polynomial there whose coefficients have the same
    values. -/
theorem changeRing_of_values {s : BaseRing} (takes : r.TakesNumbers) {p : Dense s.Elem} {q : Dense r.Elem}
    (same : p.coeffs.map (fun a => (number a).value) = q.coeffs.map fun a => (number a).value) :
    changeRing ⟨s,p⟩ r = .ok ⟨r,q⟩ := by
  have images : List.Forall₂ (fun v c => r.ofValue v = .ok c) ((numbers ⟨s,p⟩).map Value.number)
      q.coeffs := by
    rw [numbers,Dense.numbers,List.map_map,List.forall₂_map_left_iff]
    rw [← List.forall₂_eq_eq_eq,List.forall₂_map_left_iff,List.forall₂_map_right_iff] at same
    exact same.imp fun a b values => BaseRing.ofValue_of_value takes values
  have kept : Dense.ofList q.coeffs = q := Dense.ext (strip_of_getLast? q.stripped)
  rw [changeRing,ofValues_of_images images,kept]

end Poly
end Bezout

import Bezout.Proofs.Lexing
import Bezout.Proofs.Parsing

/-!
The text of a polynomial read again. Every part of the text is read as a derivation of its own: a
coefficient as a numeral or a fraction, a term as a product with a power of the name, and the text
term by term as a sum (`Writes`), whose meaning has the coefficients that were written.
-/
namespace Bezout
open Polynomial

/-! ### Numbers -/

namespace Number

theorem value_neg (c : Number) : c.neg.value = -c.value := by
  cases c <;> simp [neg,value]

theorem less_zero_iff (c : Number) : c.less (.integer 0) = true ↔ c.value < 0 := by
  simp [less,value]

theorem same_one_iff (c : Number) : c.same (.integer 1) = true ↔ c.value = 1 := by
  simp [same,value]

/-- A number is written by its value, however it is held. -/
theorem text_eq (c : Number) :
    c.text = if c.value.den = 1 then toString c.value.num else s!"{c.value.num}/{c.value.den}" := by
  cases c with
  | integer n => simp [text,value]
  | fraction q => rfl

end Number

theorem toString_toList {n : ℤ} (nonnegative : 0 ≤ n) : (toString n).toList = Nat.toDigits 10 n.toNat := by
  lift n to ℕ using nonnegative
  exact Nat.toList_repr

/-! ### Coefficients -/

/-- What a coefficient that is not negative is read as. -/
def coefficientTree (c : Number) : AtomTree :=
  if c.value.den = 1 then .numeral c.value.num.toNat else .fraction c.value.num.toNat c.value.den

theorem coefficientTree_lexes {c : Number} (nonnegative : 0 ≤ c.value) {rest : List Char}
    {ts : List Token} (ends : Ends Text.isDigit rest) (later : Lexes rest ts) :
    Lexes (c.text.toList ++ rest) ((coefficientTree c).tokens ++ ts) := by
  have digits := toString_toList (Rat.num_nonneg.mpr nonnegative)
  rw [Number.text_eq,coefficientTree]
  split
  · rw [digits]
    exact later.numeral _ ends
  · have denominator : (toString c.value.den).toList = Nat.toDigits 10 c.value.den := Nat.toList_repr
    have text : s!"{c.value.num}/{c.value.den}".toList =
        Nat.toDigits 10 c.value.num.toNat ++ '/' :: Nat.toDigits 10 c.value.den := by
      rw [← digits,← denominator]
      simp only [String.toList_append,List.append_assoc]
      rfl
    rw [text,List.append_assoc]
    exact .numeral _ (ends_slash _) (.slash (later.numeral _ ends))

theorem coefficientTree_denote {c : Number} (nonnegative : 0 ≤ c.value) :
    (coefficientTree c).denote ℚ = C c.value := by
  have numerator : ((c.value.num.toNat : ℕ) : ℚ) = (c.value.num : ℚ) := by
    exact_mod_cast Int.toNat_of_nonneg (Rat.num_nonneg.mpr nonnegative)
  rw [coefficientTree]
  split
  · rename_i whole
    rw [AtomTree.denote,numerator,Rat.coe_int_num_of_den_eq_one whole]
  · rw [AtomTree.denote,numerator,Rat.num_div_den]

theorem coefficientTree_defined (c : Number) : (coefficientTree c).Defined := by
  rw [coefficientTree]
  split
  · simp [AtomTree.Defined]
  · simp [AtomTree.Defined]

theorem coefficientTree_words (c : Number) (word : String) :
    .word word ∉ (coefficientTree c).tokens := by
  rw [coefficientTree]
  split <;> simp [AtomTree.tokens]

/-! ### Terms -/

section Terms
variable {name : String}

/-- What a power of the name is read as. -/
def powerTree (name : String) (power : ℕ) : PowerTree :=
  if power = 1 then .atom (.word name) else .raised (.word name) .caret rfl power

/-- What a term whose coefficient is not negative is read as. -/
def termTree (name : String) (power : ℕ) (c : Number) : TermTree :=
  if power = 0 then .power (.atom (coefficientTree c))
  else if c.value = 1 then .power (powerTree name power)
  else .juxtaposed (.power (.atom (coefficientTree c))) (powerTree name power)

theorem power_toList (name : String) (power : ℕ) :
    s!"{name}^{power}".toList = name.toList ++ '^' :: Nat.toDigits 10 power := by
  have exponent : (toString power).toList = Nat.toDigits 10 power := Nat.toList_repr
  rw [← exponent]
  simp only [String.toList_append,List.append_assoc]
  rfl

theorem powerTree_lexes (word : Text.isWord name.toList = true) (power : ℕ) :
    LexesAs (if power = 1 then name else s!"{name}^{power}").toList (powerTree name power).tokens := by
  intro rest later gap lexes
  rw [powerTree]
  split
  · exact lexes.word word (.of_isGap gap Text.isWordChar_blanks)
  · rw [power_toList,List.append_assoc]
    exact .word word (ends_caret _) (.caret (lexes.numeral _ (.of_isGap gap (by decide))))

theorem termTree_lexes (word : Text.isWord name.toList = true) (power : ℕ) {c : Number}
    (nonnegative : 0 ≤ c.value) : LexesAs (termText name power c).toList (termTree name power c).tokens := by
  intro rest later gap lexes
  rw [termText,termTree]
  split
  · exact coefficientTree_lexes nonnegative (.of_isGap gap (by decide)) lexes
  have factor := powerTree_lexes word power rest later gap lexes
  by_cases one : c.value = 1
  · rw [if_pos (c.same_one_iff.mpr one),if_pos one,String.empty_append]
    exact factor
  · -- Nothing stands between the coefficient and the name, which ends the numeral.
    have ends : Ends Text.isDigit
        ((if power = 1 then name else s!"{name}^{power}").toList ++ rest) := by
      split
      · exact ends_word word rest
      · rw [power_toList,List.append_assoc]
        exact ends_word word _
    rw [if_neg (mt c.same_one_iff.mp one),if_neg one,String.toList_append,List.append_assoc,
      TermTree.tokens,List.append_assoc]
    exact coefficientTree_lexes nonnegative ends factor

theorem termTree_denote (power : ℕ) {c : Number} (nonnegative : 0 ≤ c.value) :
    (termTree name power c).denote ℚ = C c.value * X ^ power := by
  have factor : (powerTree name power).denote ℚ = X ^ power := by
    rw [powerTree]
    split
    · rename_i linear
      rw [linear,pow_one]
      rfl
    · rfl
  rw [termTree]
  split
  · rename_i constant
    rw [TermTree.denote,PowerTree.denote,coefficientTree_denote nonnegative,constant,pow_zero,mul_one]
  split
  · rename_i one
    rw [TermTree.denote,factor,one,C_1,one_mul]
  · rw [TermTree.denote,TermTree.denote,PowerTree.denote,coefficientTree_denote nonnegative,factor]

theorem termTree_defined (power : ℕ) (c : Number) : (termTree name power c).Defined := by
  have coefficient := coefficientTree_defined c
  have factor : (powerTree name power).Defined := by
    rw [powerTree]
    split <;> exact trivial
  rw [termTree]
  split
  · exact coefficient
  split
  · exact factor
  · exact ⟨coefficient,factor⟩

theorem termTree_words (power : ℕ) (c : Number) {word : String}
    (member : .word word ∈ (termTree name power c).tokens) : word = name := by
  have coefficient := coefficientTree_words c word
  have factor : .word word ∈ (powerTree name power).tokens → word = name := by
    rw [powerTree]
    split <;> simp [PowerTree.tokens,AtomTree.tokens]
  rw [termTree] at member
  split at member
  · exact absurd member coefficient
  split at member
  · exact factor member
  · exact (List.mem_append.mp member).elim (absurd · coefficient) factor

end Terms

/-! ### Signs -/

/-- The term that a coefficient and its power stand for. -/
noncomputable def termPolynomial (term : Number × ℕ) : ℚ[X] := C term.1.value * X ^ term.2

namespace Number

/-- The sign that a number is written with. -/
def sign (c : Number) : Sign := if c.value < 0 then .minus else .plus

/-- What is written after the sign. -/
def magnitude (c : Number) : Number := if c.value < 0 then c.neg else c

theorem value_magnitude_nonneg (c : Number) : 0 ≤ c.magnitude.value := by
  rw [magnitude]
  split
  · rw [value_neg]
    linarith
  · linarith

end Number

theorem magnitude_denote (name : String) (c : Number) (power : ℕ) :
    (termTree name power c.magnitude).denote ℚ =
      if c.value < 0 then -termPolynomial (c,power) else termPolynomial (c,power) := by
  rw [termTree_denote power c.value_magnitude_nonneg,Number.magnitude,termPolynomial]
  split
  · rw [Number.value_neg,C_neg,neg_mul]
  · rfl

/-- A sum goes on with the magnitude of a coefficient under its sign. -/
theorem joined_denote (tree : PolyTree) (name : String) (c : Number) (power : ℕ) :
    (PolyTree.joined tree c.sign (termTree name power c.magnitude)).denote ℚ =
      tree.denote ℚ + termPolynomial (c,power) := by
  have term := magnitude_denote name c power
  by_cases negative : c.value < 0
  · rw [if_pos negative] at term
    rw [Number.sign,if_pos negative,PolyTree.denote,term,sub_neg_eq_add]
  · rw [if_neg negative] at term
    rw [Number.sign,if_neg negative,PolyTree.denote,term]

theorem appendTerm_toList {written : String} (nonempty : written ≠ "") (name : String) (c : Number)
    (power : ℕ) :
    (appendTerm name written (c,power)).toList =
      written.toList ++ ' ' :: c.sign.character :: ' ' :: (termText name power c.magnitude).toList := by
  by_cases negative : c.value < 0
  · simp [appendTerm,nonempty,c.less_zero_iff.mpr negative,Number.sign,Number.magnitude,negative,
      Sign.character]
  · simp [appendTerm,nonempty,mt c.less_zero_iff.mp negative,Number.sign,Number.magnitude,negative,
      Sign.character]

/-! ### Sums -/

/-- A text that is read as a derivation in one name, with a given meaning. -/
structure Writes (name written : String) (tree : PolyTree) (value : ℚ[X]) : Prop where
  lexes : LexesAs written.toList tree.tokens
  words : ∀ word, .word word ∈ tree.tokens → word = name
  defined : tree.Defined
  meaning : tree.denote ℚ = value

section Sums
variable {name written : String} {tree : PolyTree} {value : ℚ[X]}

theorem Writes.nonempty (writes : Writes name written tree value) : written ≠ "" := by
  rintro rfl
  obtain ⟨t,before,reversed,-⟩ := tree.exists_last
  rw [writes.lexes.lexes.eq_nil] at reversed
  cases reversed

theorem writes_zero : Writes name "0" (.term (.power (.atom (.numeral 0)))) 0 where
  lexes rest later gap lexes := lexes.numeral 0 (.of_isGap gap (by decide))
  words := by simp [PolyTree.tokens,TermTree.tokens,PowerTree.tokens,AtomTree.tokens]
  defined := trivial
  meaning := by simp [PolyTree.denote,TermTree.denote,PowerTree.denote,AtomTree.denote]

/-- The first term stands alone or after a minus. -/
theorem writes_first (word : Text.isWord name.toList = true) (c : Number) (power : ℕ) :
    ∃ tree, Writes name (appendTerm name "" (c,power)) tree (termPolynomial (c,power)) := by
  have lexes := termTree_lexes word power c.value_magnitude_nonneg
  have words : ∀ word, .word word ∈ (termTree name power c.magnitude).tokens → word = name :=
    fun word => termTree_words power c.magnitude
  have defined : (termTree name power c.magnitude).Defined := termTree_defined power c.magnitude
  have meaning := magnitude_denote name c power
  by_cases negative : c.value < 0
  · have text : (appendTerm name "" (c,power)).toList =
        '-' :: (termText name power c.magnitude).toList := by
      simp [appendTerm,c.less_zero_iff.mpr negative,Number.magnitude,negative]
    rw [if_pos negative] at meaning
    refine ⟨.signed .minus (termTree name power c.magnitude),?_,?_,defined,?_⟩
    · intro rest later gap after
      rw [text]
      exact .minus (lexes rest later gap after)
    · intro word member
      exact words word ((List.mem_cons.mp member).resolve_left nofun)
    · rw [PolyTree.denote,meaning,neg_neg]
  · have text : appendTerm name "" (c,power) = termText name power c.magnitude := by
      simp [appendTerm,mt c.less_zero_iff.mp negative,Number.magnitude,negative]
    rw [if_neg negative] at meaning
    refine ⟨.term (termTree name power c.magnitude),?_,words,defined,meaning⟩
    rw [text]
    exact lexes

/-- Every other term stands after a sign between blanks. -/
theorem Writes.append (writes : Writes name written tree value) (word : Text.isWord name.toList = true)
    (c : Number) (power : ℕ) :
    Writes name (appendTerm name written (c,power))
      (.joined tree c.sign (termTree name power c.magnitude)) (value + termPolynomial (c,power)) where
  lexes := by
    intro rest later gap lexes
    have term := termTree_lexes word power c.value_magnitude_nonneg rest later gap lexes
    rw [appendTerm_toList writes.nonempty,PolyTree.tokens,List.append_assoc,List.append_assoc]
    -- What is written already is read as before: the blank before the sign comes after it.
    exact writes.lexes _ _ (by rintro c ⟨⟩; rfl) (.between c.sign term)
  words := by
    intro word member
    rcases List.mem_append.mp member with before | after
    · exact writes.words word before
    · refine termTree_words power c.magnitude ((List.mem_cons.mp after).resolve_left ?_)
      cases c.sign <;> nofun
  defined := ⟨writes.defined,termTree_defined power c.magnitude⟩
  meaning := by rw [joined_denote,writes.meaning]

theorem Writes.foldl (writes : Writes name written tree value) (word : Text.isWord name.toList = true)
    (terms : List (Number × ℕ)) :
    ∃ next, Writes name (terms.foldl (appendTerm name) written) next
      (value + (terms.map termPolynomial).sum) := by
  induction terms generalizing written tree value with
  | nil => exact ⟨tree,by simpa using writes⟩
  | cons term rest ih =>
    obtain ⟨next,whole⟩ := ih (writes.append word term.1 term.2)
    rw [add_assoc,← List.sum_cons] at whole
    exact ⟨next,whole⟩

/-! ### Polynomials -/

/-- The terms of a list of coefficients that starts at power `n`. -/
theorem sum_zipIdx (coefficients : List Number) (n : ℕ) :
    ((coefficients.zipIdx n).map termPolynomial).sum =
      X ^ n * ofCoeffs (coefficients.map Number.value) := by
  induction coefficients generalizing n with
  | nil => simp [ofCoeffs]
  | cons c rest ih =>
    rw [List.zipIdx_cons,List.map_cons,List.sum_cons,ih,List.map_cons,ofCoeffs,termPolynomial,pow_succ]
    ring

/-- Terms that are zero can be left out. -/
theorem sum_filter (terms : List (Number × ℕ)) :
    ((terms.filter fun (c,_) => !c.isZero).map termPolynomial).sum =
      (terms.map termPolynomial).sum := by
  induction terms with
  | nil => rfl
  | cons term rest ih =>
    obtain ⟨c,power⟩ := term
    by_cases zero : c.value = 0
    · rw [List.filter_cons_of_neg (by simp [Number.isZero,zero]),ih,List.map_cons,List.sum_cons,
        termPolynomial,zero,C_0,zero_mul,zero_add]
    · rw [List.filter_cons_of_pos (by simp [Number.isZero,zero]),List.map_cons,List.sum_cons,ih,
        List.map_cons,List.sum_cons]

theorem termsText_writes (word : Text.isWord name.toList = true) (coefficients : List Number) :
    ∃ tree, Writes name (termsText name coefficients) tree
      (ofCoeffs (coefficients.map Number.value)) := by
  have sum : ((coefficients.zipIdx.reverse.filter fun (c,_) => !c.isZero).map termPolynomial).sum =
      ofCoeffs (coefficients.map Number.value) := by
    rw [sum_filter,List.map_reverse,List.sum_reverse,sum_zipIdx,pow_zero,one_mul]
  rw [termsText,← sum]
  split
  · rename_i nothing
    rw [nothing]
    exact ⟨_,writes_zero⟩
  · rename_i terms nonempty
    cases split : coefficients.zipIdx.reverse.filter fun (c,_) => !c.isZero with
    | nil => exact absurd split nonempty
    | cons term rest =>
      obtain ⟨tree,first⟩ := writes_first word term.1 term.2
      exact first.foldl word rest

end Sums

theorem parseExpr_termsText {name : String} (word : Text.isWord name.toList = true)
    (coefficients : List Number) :
    ∃ e, parseExpr (termsText name coefficients) name = .ok e ∧
      (e.eval ℚ).toPolynomial = ofCoeffs (coefficients.map Number.value) := by
  obtain ⟨tree,writes⟩ := termsText_writes word coefficients
  obtain ⟨placed,legal,tokens⟩ := writes.lexes.lexes.tokenize
  have named : ∀ t ∈ placed, ∀ word, t.token = .word word → word = name := by
    intro t member word token
    refine writes.words word ?_
    rw [← tokens,← token]
    exact List.mem_map_of_mem member
  refine ⟨tree.expr,?_,tree.toPolynomial_eval.trans writes.meaning⟩
  exact (parseExpr_eq_ok_iff legal named _).mpr ⟨tree,tokens.symm,writes.defined,rfl⟩

namespace BaseRing
open Coefficient (number)

/-- Only zero has the value zero. -/
theorem eq_zero_of_value {r : BaseRing} (takes : r.TakesNumbers) {a : r.Elem}
    (zero : (number a).value = 0) : a = 0 := by
  have image : r.ofNumber (.integer 0) = .ok a := ofNumber_of_value takes (Int.cast_zero.trans zero.symm)
  have none : r.ofNumber (.integer 0) = .ok 0 := ofNumber_of_value takes (by cases r <;> rfl)
  exact Except.ok.inj (image.symm.trans none)

end BaseRing

namespace Poly
open Coefficient (number)

/-- The values of the coefficients do not end with a zero. -/
theorem strip_values {r : BaseRing} (takes : r.TakesNumbers) (p : Dense r.Elem) :
    strip (p.coeffs.map fun a => (number a).value) = p.coeffs.map fun a => (number a).value := by
  refine strip_of_getLast? ?_
  rw [List.getLast?_map]
  intro ended
  obtain ⟨a,last,zero⟩ := Option.map_eq_some_iff.mp ended
  exact p.stripped (last.trans (congrArg some (BaseRing.eq_zero_of_value takes zero)))

/-- What a polynomial is written as is read as the polynomial, whatever its ring and the name of its
    variable. -/
theorem ofText_text {r : BaseRing} (takes : r.TakesNumbers) (p : Dense r.Elem) {name : String}
    (word : Text.isWord name.toList = true) : ofText (text ⟨r,p⟩ name) r name = .ok ⟨r,p⟩ := by
  obtain ⟨e,read,meaning⟩ := parseExpr_termsText word (numbers ⟨r,p⟩)
  have values : (numbers ⟨r,p⟩).map Number.value = p.coeffs.map fun a => (number a).value :=
    List.map_map
  have same : (e.eval ℚ).coeffs = p.coeffs.map fun a => (number a).value := by
    rw [← strip_values takes p,← values,← strip_eq_of_ofCoeffs_eq meaning]
    exact (strip_of_getLast? (e.eval ℚ).stripped).symm
  have taken : changeRing ⟨.rationals,e.eval ℚ⟩ r = .ok ⟨r,p⟩ :=
    changeRing_of_values takes (s := .rationals) ((List.map_id' _).trans same)
  rw [ofText,text,read]
  exact congrArg (Except.mapError _) taken

/-- A negative fraction, a missing term, a coefficient of one and a constant. -/
theorem ofText_text_fractions :
    BaseRing.rationals.TakesNumbers ∧ Text.isWord "x_1".toList = true ∧
      ∃ p : Dense BaseRing.rationals.Elem, text ⟨.rationals,p⟩ "x_1" = "-3/4x_1^5 + x_1^2 - x_1 + 12" ∧
        ofText (text ⟨.rationals,p⟩ "x_1") .rationals "x_1" = .ok ⟨.rationals,p⟩ := by
  have word : Text.isWord "x_1".toList = true := by decide +kernel
  refine ⟨trivial,word,Dense.ofList [12,-1,1,0,0,-3 / 4],?_,ofText_text (r := .rationals) trivial _ word⟩
  decide +kernel

end Poly
end Bezout

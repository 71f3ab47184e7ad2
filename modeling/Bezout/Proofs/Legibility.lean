import Bezout.Proofs.Readings
import Bezout.Proofs.Reports
import Bezout.Proofs.RoundTrip

/-!
Polynomials that can be written in a variable and read again. A variable whose name is no name of the
grammar occurs in no text that is read, so that only constants are read in it, and constants are written
without the variable. What is read in a variable can therefore be written in it and read again, whatever
its name (`legible_of_ofText`, `ofText_of_legible`).
-/
namespace Bezout
open Polynomial

/-! ### The names in a text -/

theorem isWord_of_tokenAt {c : Char} {rest : List Char} {word : String} {more : ℕ}
    (found : tokenAt c rest = some (.word word,more)) : Text.isWord word.toList = true := by
  unfold tokenAt at found
  split at found
  · rename_i starts
    cases found
    rw [String.toList_ofList,Text.isWord,starts,List.all_takeWhile]
    rfl
  split at found
  · cases found
  · split at found <;> cases found

theorem isWord_of_scanFrom (position : ℕ) (cs : List Char) {t : Placed}
    (member : t ∈ (scanFrom position cs).tokens) {word : String} (token : t.token = .word word) :
    Text.isWord word.toList = true := by
  fun_induction scanFrom position cs with
  | case1 => cases member
  | case2 position c rest gap ih => exact ih member
  | case3 => cases member
  | case4 position c rest gap other more found later ih =>
    rcases List.mem_cons.mp member with rfl | behind
    · cases token
      exact isWord_of_tokenAt found
    · exact ih behind

/-- What is read has legal characters and no name but the variable, which is a word then. -/
theorem exists_tokens_of_parseExpr {text name : String} {e : Expr} (read : parseExpr text name = .ok e) :
    ∃ ts, tokenize text = .ok ts ∧ ∀ t ∈ ts, ∀ word, t.token = .word word →
      word = name ∧ Text.isWord name.toList = true := by
  rw [parseExpr] at read
  split at read
  · cases read
  · cases read
  · rename_i ts stray legal
    rw [scan_of_tokenize legal] at stray
    refine ⟨ts,legal,fun t member word token => ?_⟩
    have scanned : t ∈ (scanFrom 0 text.toList).tokens := by
      show t ∈ (scan text).tokens
      rw [scan_of_tokenize legal]
      exact member
    have same : word = name := by
      rw [Parse.strayName?,List.findSome?_eq_none_iff] at stray
      have unstray := stray t member
      by_contra other
      simp [token,other] at unstray
    exact ⟨same,same ▸ isWord_of_scanFrom 0 text.toList scanned token⟩

/-! ### Texts without names -/

/-- Tokens without a name among them. -/
def Nameless (ts : List Token) : Prop := ∀ word, .word word ∉ ts

theorem Nameless.left {ts us : List Token} (nameless : Nameless (ts ++ us)) : Nameless ts :=
  fun word member => nameless word (List.mem_append_left us member)

theorem Nameless.right {ts us : List Token} (nameless : Nameless (ts ++ us)) : Nameless us :=
  fun word member => nameless word (List.mem_append_right ts member)

theorem Nameless.tail {t : Token} {ts : List Token} (nameless : Nameless (t :: ts)) : Nameless ts :=
  fun word member => nameless word (List.mem_cons_of_mem t member)

mutual

/-- A sum without names means a constant. -/
theorem PolyTree.exists_constant : (p : PolyTree) → Nameless p.tokens → ∃ c, p.denote ℚ = C c
  | .term t, nameless => t.exists_constant nameless
  | .signed .plus t, nameless => t.exists_constant nameless.tail
  | .signed .minus t, nameless => by
    obtain ⟨c,constant⟩ := t.exists_constant nameless.tail
    exact ⟨-c,by rw [PolyTree.denote,constant,C_neg]⟩
  | .joined p .plus t, nameless => by
    obtain ⟨b,first⟩ := p.exists_constant nameless.left
    obtain ⟨c,second⟩ := t.exists_constant nameless.right.tail
    exact ⟨b + c,by rw [PolyTree.denote,first,second,C_add]⟩
  | .joined p .minus t, nameless => by
    obtain ⟨b,first⟩ := p.exists_constant nameless.left
    obtain ⟨c,second⟩ := t.exists_constant nameless.right.tail
    exact ⟨b - c,by rw [PolyTree.denote,first,second,C_sub]⟩

theorem TermTree.exists_constant : (t : TermTree) → Nameless t.tokens → ∃ c, t.denote ℚ = C c
  | .power w, nameless => w.exists_constant nameless
  | .times t w, nameless => by
    obtain ⟨b,first⟩ := t.exists_constant nameless.left
    obtain ⟨c,second⟩ := w.exists_constant nameless.right.tail
    exact ⟨b * c,by rw [TermTree.denote,first,second,C_mul]⟩
  | .juxtaposed t w, nameless => by
    obtain ⟨b,first⟩ := t.exists_constant nameless.left
    obtain ⟨c,second⟩ := w.exists_constant nameless.right
    exact ⟨b * c,by rw [TermTree.denote,first,second,C_mul]⟩

theorem PowerTree.exists_constant : (w : PowerTree) → Nameless w.tokens → ∃ c, w.denote ℚ = C c
  | .atom a, nameless => a.exists_constant nameless
  | .raised a _ _ n, nameless => by
    obtain ⟨c,constant⟩ := a.exists_constant nameless.left
    exact ⟨c ^ n,by rw [PowerTree.denote,constant,C_pow]⟩

theorem AtomTree.exists_constant : (a : AtomTree) → Nameless a.tokens → ∃ c, a.denote ℚ = C c
  | .numeral n, _ => ⟨n,rfl⟩
  | .fraction n d, _ => ⟨n / d,rfl⟩
  | .word name, nameless => absurd List.mem_cons_self (nameless name)
  | .parenthesized p, nameless => p.exists_constant nameless.tail.left

end

/-! ### Polynomials that can be read again -/

theorem length_strip_le {R : Type} [Coefficient R] (cs : List R) : (strip cs).length ≤ cs.length := by
  induction cs with
  | nil => exact le_rfl
  | cons c rest ih =>
    rw [strip]
    split
    · split <;> simp
    · exact Nat.succ_le_succ ih

theorem length_of_mapM {α β ε : Type} {f : α → Except ε β} {as : List α} {bs : List β}
    (through : as.mapM f = .ok bs) : bs.length = as.length := by
  induction as generalizing bs with
  | nil =>
    cases through
    rfl
  | cons a rest ih =>
    rw [List.mapM_cons] at through
    cases image : f a with
    | error e =>
      rw [image] at through
      cases through
    | ok b =>
      cases later : rest.mapM f with
      | error e =>
        rw [image,later] at through
        cases through
      | ok others =>
        rw [image,later] at through
        cases through
        exact congrArg Nat.succ (ih later)

namespace Dense
variable {r : BaseRing}

/-- A polynomial that can be written in a variable of a name: the variable is a word of the grammar, or
    it does not occur. -/
def Legible (name : String) (p : Dense r.Elem) : Prop := Text.isWord name.toList = true ∨ p.size ≤ 1

end Dense

namespace Poly
open Coefficient (number)
variable {r : BaseRing}

theorem size_le_of_ofValues {vs : List Value} {d : Dense r.Elem} (taken : ofValues vs r = .ok ⟨r,d⟩) :
    d.size ≤ vs.length := by
  obtain ⟨cs,images,same⟩ := exists_images_of_ofValues taken
  cases same
  exact (length_strip_le cs).trans (length_of_mapM images).le

/-- What is read in a variable can be written in it, whatever its name. -/
theorem legible_of_ofText {text name : String} {d : Dense r.Elem}
    (read : ofText text r name = .ok ⟨r,d⟩) : d.Legible name := by
  by_cases word : Text.isWord name.toList = true
  · exact .inl word
  obtain ⟨e,parsed,taken⟩ := exists_expr_of_ofText read
  obtain ⟨ts,legal,named⟩ := exists_tokens_of_parseExpr parsed
  -- A name in the text would be the variable, and a word.
  have stray : ∀ t ∈ ts, ∀ w, t.token ≠ .word w := fun t member w token =>
    word (named t member w token).2
  obtain ⟨tree,sentence,-,rfl⟩ :=
    (parseExpr_eq_ok_iff legal (fun t member w token => (named t member w token).1) e).mp parsed
  have nameless : Nameless tree.tokens := by
    intro w member
    rw [sentence] at member
    obtain ⟨t,listed,token⟩ := List.mem_map.mp member
    exact stray t listed w token
  obtain ⟨c,constant⟩ := tree.exists_constant nameless
  have degree := (tree.expr.eval ℚ).natDegree_toPolynomial
  rw [tree.toPolynomial_eval,constant,natDegree_C] at degree
  have shorter := size_le_of_ofValues taken
  have counted : ((numbers ⟨.rationals,tree.expr.eval ℚ⟩).map Value.number).length =
      (tree.expr.eval ℚ).size := by
    rw [List.length_map]
    exact List.length_map _
  exact .inr (by omega)

/-! ### Writing and reading again -/

/-- A constant is written without the variable. -/
theorem text_constant {d : Dense r.Elem} (constant : d.size ≤ 1) (name other : String) :
    text ⟨r,d⟩ name = text ⟨r,d⟩ other := by
  have counted : (numbers ⟨r,d⟩).length ≤ 1 := (List.length_map _).trans_le constant
  rw [text,text]
  cases coefficients : numbers ⟨r,d⟩ with
  | nil => rfl
  | cons c rest =>
    rw [coefficients,List.length_cons] at counted
    obtain rfl : rest = [] := List.length_eq_zero_iff.mp (by omega)
    simp only [termsText,List.zipIdx_cons,List.zipIdx_nil,List.reverse_singleton]
    cases zero : c.isZero with
    | true => simp [zero]
    | false => simp [zero,appendTerm,termText]

/-- What is read as an expression with the values of the coefficients is read as the polynomial. -/
theorem ofText_of_parseExpr (takes : r.TakesNumbers) {d : Dense r.Elem} {written name : String} {e : Expr}
    (read : parseExpr written name = .ok e)
    (meaning : (e.eval ℚ).toPolynomial = ofCoeffs ((numbers ⟨r,d⟩).map Number.value)) :
    ofText written r name = .ok ⟨r,d⟩ := by
  have values : (numbers ⟨r,d⟩).map Number.value = d.coeffs.map fun a => (number a).value := List.map_map
  have same : (e.eval ℚ).coeffs = d.coeffs.map fun a => (number a).value := by
    rw [← strip_values takes d,← values,← strip_eq_of_ofCoeffs_eq meaning]
    exact (strip_of_getLast? (e.eval ℚ).stripped).symm
  have taken : changeRing ⟨.rationals,e.eval ℚ⟩ r = .ok ⟨r,d⟩ :=
    changeRing_of_values takes (s := .rationals) ((List.map_id' _).trans same)
  rw [ofText,read]
  exact congrArg (Except.mapError _) taken

theorem exists_parseExpr_constant {d : Dense r.Elem} (constant : d.size ≤ 1) (name : String) :
    ∃ e, parseExpr (text ⟨r,d⟩ name) name = .ok e ∧
      (e.eval ℚ).toPolynomial = ofCoeffs ((numbers ⟨r,d⟩).map Number.value) := by
  have first : Text.isWord "x".toList = true := by decide +kernel
  have second : Text.isWord "y".toList = true := by decide +kernel
  obtain ⟨tree,writes⟩ := termsText_writes first (numbers ⟨r,d⟩)
  obtain ⟨other,writes'⟩ := termsText_writes second (numbers ⟨r,d⟩)
  obtain ⟨ts,legal,tokens⟩ := writes.lexes.lexes.tokenize
  obtain ⟨ts',legal',tokens'⟩ := writes'.lexes.lexes.tokenize
  -- The same text is written in two variables, so that it holds the name of neither.
  have written : termsText "y" (numbers ⟨r,d⟩) = termsText "x" (numbers ⟨r,d⟩) :=
    text_constant constant "y" "x"
  rw [written,legal,Except.ok.injEq] at legal'
  subst legal'
  have nameless : ∀ t ∈ ts, ∀ word, t.token = .word word → word = name := by
    intro t member word token
    have listed : Token.word word ∈ ts.map Placed.token := token ▸ List.mem_map_of_mem member
    have same := writes.words word (tokens ▸ listed)
    rw [same] at listed
    exact absurd (writes'.words "x" (tokens' ▸ listed)) (by decide)
  refine ⟨tree.expr,?_,tree.toPolynomial_eval.trans writes.meaning⟩
  rw [text_constant constant name "x"]
  exact (parseExpr_eq_ok_iff legal nameless _).mpr ⟨tree,tokens.symm,writes.defined,rfl⟩

/-- What can be written in a variable is read again as it was. -/
theorem ofText_of_legible (takes : r.TakesNumbers) {d : Dense r.Elem} {name : String}
    (legible : d.Legible name) : ofText (text ⟨r,d⟩ name) r name = .ok ⟨r,d⟩ := by
  rcases legible with word | constant
  · obtain ⟨e,read,meaning⟩ := parseExpr_termsText word (numbers ⟨r,d⟩)
    exact ofText_of_parseExpr takes read meaning
  · obtain ⟨e,read,meaning⟩ := exists_parseExpr_constant constant name
    exact ofText_of_parseExpr takes read meaning

/-! ### One line -/

theorem oneLine_number (c : Number) : OneLine c.text := by
  rw [Number.text_eq]
  split
  · exact oneLine_int _
  · exact .append (.append (oneLine_int _) (by decide)) (oneLine_nat _)

theorem oneLine_of_isWord {name : String} (word : Text.isWord name.toList = true) : OneLine name := by
  obtain ⟨c,more,split,starts,inside⟩ := Text.exists_cons_of_isWord word
  rw [OneLine,split]
  intro member
  rcases List.mem_cons.mp member with rfl | behind
  · cases starts
  · have word := inside _ behind
    rw [Text.isWordChar_blanks.2.2] at word
    cases word

theorem oneLine_termText {name : String} (line : OneLine name) (power : ℕ) (c : Number) :
    OneLine (termText name power c) := by
  rw [termText]
  split
  · exact oneLine_number c
  · refine .append ?_ ?_
    · split
      · decide
      · exact oneLine_number c
    · split
      · exact line
      · exact .append (.append line (by decide)) (oneLine_nat power)

theorem oneLine_appendTerm {name written : String} (line : OneLine name) (before : OneLine written)
    (term : Number × ℕ) : OneLine (appendTerm name written term) := by
  obtain ⟨c,power⟩ := term
  refine .append (.append before ?_) (oneLine_termText line power _)
  split
  · split <;> decide
  · split <;> decide

theorem oneLine_foldl {name written : String} (line : OneLine name) (before : OneLine written)
    (terms : List (Number × ℕ)) : OneLine (terms.foldl (appendTerm name) written) := by
  induction terms generalizing written with
  | nil => exact before
  | cons term rest ih => exact ih (oneLine_appendTerm line before term)

theorem oneLine_termsText {name : String} (line : OneLine name) (coefficients : List Number) :
    OneLine (termsText name coefficients) := by
  rw [termsText]
  split
  · decide
  · exact oneLine_foldl line (by decide) _

/-- What can be written in a variable is written on one line. -/
theorem oneLine_of_legible {d : Dense r.Elem} {name : String} (legible : d.Legible name) :
    OneLine (text ⟨r,d⟩ name) := by
  rcases legible with word | constant
  · exact oneLine_termsText (oneLine_of_isWord word) _
  · rw [text_constant constant name "x"]
    exact oneLine_termsText (by decide) _

end Poly
end Bezout

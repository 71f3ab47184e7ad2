import Bezout.Proofs.Lexing
import Bezout.Proofs.PrimeFields
import Bezout.Arithmetic

/-!
Rings by their names. A ring is found under its own name in any case and between any blanks, and a prime
field also without the parentheses and with zeros before its number (`BaseRing.Spelling`). What is written
like the name of a prime field, with the digits of any script (`FieldName`), names the field of its number,
or nothing if that is not prime.
-/
namespace Bezout

/-! ### Texts without the blanks around them -/

namespace Text

theorem dropWhile_append_of_head {skip : Char → Bool} {before rest : List Char}
    (skipped : ∀ c ∈ before, skip c = true) (stops : ∀ c ∈ rest.head?, skip c = false) :
    (before ++ rest).dropWhile skip = rest := by
  rw [List.dropWhile_append_of_pos skipped]
  cases rest with
  | nil => rfl
  | cons c rest => exact List.dropWhile_cons_of_neg (by simp [stops c rfl])

/-- A row of characters that starts and ends with none to be skipped is what is left of it between skipped
    ones. -/
theorem trimmed_append {skip : Char → Bool} {before inside after : List Char}
    (skipped : ∀ c ∈ before, skip c = true) (also : ∀ c ∈ after, skip c = true) (nonempty : inside ≠ [])
    (first : ∀ c ∈ inside.head?, skip c = false) (last : ∀ c ∈ inside.getLast?, skip c = false) :
    trimmed skip (before ++ inside ++ after) = inside := by
  have starts : ∀ c ∈ (inside ++ after).head?, skip c = false := by
    rwa [List.head?_append_of_ne_nil inside nonempty]
  have ends : ∀ c ∈ inside.reverse.head?, skip c = false := by rwa [List.head?_reverse]
  rw [trimmed,List.append_assoc,dropWhile_append_of_head skipped starts,List.reverse_append,
    dropWhile_append_of_head (fun c member => also c (List.mem_reverse.mp member)) ends,List.reverse_reverse]

/-- No digit of any script is blank. -/
theorem isBlank_of_isDigit {c : Char} (digit : isDigit c = true) : isBlank c = false := by
  have apart : ∀ span ∈ digitSpans, ∀ blank ∈ blankSpans, span.2 < blank.1 ∨ blank.2 < span.1 := by
    decide +kernel
  cases blank : isBlank c with
  | false => rfl
  | true =>
    obtain ⟨gap,blankSpan,inGap⟩ := List.any_eq_true.mp blank
    rw [isDigit,digitValue?,Option.isSome_map,List.find?_isSome] at digit
    obtain ⟨span,digitSpan,inSpan⟩ := digit
    have disjoint := apart span digitSpan gap blankSpan
    simp only [Bool.and_eq_true,decide_eq_true_eq] at inGap inSpan
    omega

/-- Zeros before the digits of a number do not change it. -/
theorem numberOf_zeros (zeros : ℕ) (digits : List Char) :
    numberOf (List.replicate zeros '0' ++ digits) = numberOf digits := by
  induction zeros with
  | zero => rfl
  | succ zeros ih => exact ih

end Text

/-- A text is a row of characters with blanks before and behind it. -/
def BetweenBlanks (inside : List Char) (text : String) : Prop :=
  ∃ before after, text.toList = before ++ inside ++ after ∧ (∀ c ∈ before, Text.isBlank c = true) ∧
    ∀ c ∈ after, Text.isBlank c = true

/-- The same characters up to the case of letters. -/
def CaseChange (s t : List Char) : Prop := List.Forall₂ (fun c d => d = c ∨ d = c.toLower ∨ d = c.toUpper) s t

/-- What is written like the name of the prime field with a number: `GF` in any case and digits of any script,
    each parenthesis of which may be left out. -/
inductive FieldName (n : ℕ) : List Char → Prop
  | mk {g f c : Char} {opening more closing : List Char} (first : g = 'G' ∨ g = 'g') (second : f = 'F' ∨ f = 'f')
      (opened : opening = [] ∨ opening = ['(']) (closed : closing = [] ∨ closing = [')'])
      (digits : ∀ d ∈ c :: more, Text.isDigit d = true) (number : Text.numberOf (c :: more) = n) :
      FieldName n (g :: f :: (opening ++ (c :: more) ++ closing))

/-- The ways to write the name of a ring. -/
inductive BaseRing.Spelling : BaseRing → List Char → Prop
  | integers : Spelling .integers ['Z','Z']
  | rationals : Spelling .rationals ['Q','Q']
  | parenthesized (m : Modulus) (zeros : ℕ) : Spelling (.residues m)
      (['G','F','('] ++ (List.replicate zeros '0' ++ Nat.toDigits 10 m.value) ++ [')'])
  | bare (m : Modulus) (zeros : ℕ) : Spelling (.residues m)
      (['G','F'] ++ (List.replicate zeros '0' ++ Nat.toDigits 10 m.value))

/-! ### Names of prime fields -/

theorem digits?_of_digits {c : Char} {more : List Char} (digits : ∀ d ∈ c :: more, Text.isDigit d = true) :
    digits? (c :: more) = some (Text.numberOf (c :: more)) :=
  if_pos (by rw [List.isEmpty_cons,Bool.not_false,Bool.true_and,List.all_eq_true]; exact digits)

namespace FieldName
variable {n : ℕ} {name : List Char}

/-- What is written like the name of a prime field is taken for one. -/
theorem fieldNumber? (named : FieldName n name) : fieldNumber? name = some n := by
  obtain ⟨first,second,opened,closed,digits,rfl⟩ := named
  rename_i g f c opening more closing
  have letters : ((g == 'G' || g == 'g') && (f == 'F' || f == 'f')) = true := by
    simpa using And.intro first second
  have inside : (if (opening ++ (c :: more) ++ closing).head? = some '(' then
      (opening ++ (c :: more) ++ closing).tail else opening ++ (c :: more) ++ closing) = (c :: more) ++ closing := by
    rcases opened with rfl | rfl
    · refine if_neg fun same => ?_
      have digit := digits c List.mem_cons_self
      rw [Option.some.inj same] at digit
      cases digit
    · rfl
  have whole : (if ((c :: more) ++ closing).getLast? = some ')' then ((c :: more) ++ closing).dropLast else
      (c :: more) ++ closing) = c :: more := by
    rcases closed with rfl | rfl
    · rw [List.append_nil]
      refine if_neg fun same => ?_
      have digit := digits ')' (List.mem_of_getLast? same)
      cases digit
    · rw [if_pos List.getLast?_concat,List.dropLast_concat]
  refine (if_pos letters).trans ?_
  rw [inside,whole]
  exact digits?_of_digits digits

theorem ne_nil (named : FieldName n name) : name ≠ [] := by
  cases named
  exact List.cons_ne_nil _ _

/-- No blanks belong to the name. -/
theorem head?_not_blank (named : FieldName n name) : ∀ c ∈ name.head?, Text.isBlank c = false := by
  obtain ⟨rfl | rfl,_,_,_,_,_⟩ := named
  all_goals
    rintro c ⟨⟩
    decide

theorem getLast?_not_blank (named : FieldName n name) : ∀ c ∈ name.getLast?, Text.isBlank c = false := by
  obtain ⟨-,-,-,closed,digits,-⟩ := named
  rename_i g f d opening more closing
  have last : ∀ c ∈ ((d :: more) ++ closing).getLast?, Text.isBlank c = false := by
    rcases closed with rfl | rfl
    · intro c same
      rw [List.append_nil] at same
      exact Text.isBlank_of_isDigit (digits c (List.mem_of_getLast? same))
    · intro c same
      rw [List.getLast?_concat] at same
      cases same
      decide
  have split : g :: f :: (opening ++ (d :: more) ++ closing) =
      (g :: f :: opening) ++ ((d :: more) ++ closing) := by simp
  rwa [split,List.getLast?_append_of_ne_nil _ (show (d :: more) ++ closing ≠ [] from List.cons_ne_nil d _)]

end FieldName

namespace BaseRing

/-- A name between blanks is taken without them. -/
theorem ofName_eq {name : List Char} {text : String} (between : BetweenBlanks name text) (nonempty : name ≠ [])
    (first : ∀ c ∈ name.head?, Text.isBlank c = false) (last : ∀ c ∈ name.getLast?, Text.isBlank c = false) :
    ofName text =
      if Text.upper (String.ofList name) = "ZZ" then .ok integers
      else if Text.upper (String.ofList name) = "QQ" then .ok rationals
      else
        match fieldNumber? name with
        | some n => ofModulus (.integer n)
        | none => .error (.unknownRing (String.ofList name)) := by
  obtain ⟨before,after,split,left,right⟩ := between
  have trimmed : Text.trimmed Text.isBlank text.toList = name := by
    rw [split]
    exact Text.trimmed_append left right nonempty first last
  cases read : fieldNumber? name <;> simp only [ofName,trimmed,String.toList_ofList,read]

/-- A name between blanks that is written like that of a prime field is taken by its number. -/
theorem ofName_of_fieldName {n : ℕ} {name : List Char} {text : String} (named : FieldName n name)
    (between : BetweenBlanks name text) : ofName text = ofModulus (.integer n) := by
  have other : ∀ c : Char, c ≠ 'G' → Text.upper (String.ofList name) ≠ String.ofList [c,c] := by
    intro c different same
    obtain ⟨letter,_,_,_,_,_⟩ := named
    rw [Text.upper,String.ofList_inj,String.toList_ofList,List.flatMap_cons] at same
    rcases letter with rfl | rfl
    · exact different (List.cons.inj same).1.symm
    · exact different (List.cons.inj same).1.symm
  rw [ofName_eq between named.ne_nil named.head?_not_blank named.getLast?_not_blank,
    if_neg (other 'Z' (by decide)),if_neg (other 'Q' (by decide)),named.fieldNumber?]

end BaseRing

/-! ### Changes of case -/

namespace CaseChange

theorem eq_of_caseless {s t : List Char} (change : CaseChange s t)
    (caseless : ∀ c ∈ s, c.toLower = c ∧ c.toUpper = c) : t = s := by
  induction change with
  | nil => rfl
  | @cons c d s t letter _ ih =>
    obtain ⟨lower,upper⟩ := caseless c List.mem_cons_self
    rw [lower,upper] at letter
    rw [ih fun e member => caseless e (List.mem_cons_of_mem c member)]
    simpa using letter

theorem letter {c d : Char} (change : d = c ∨ d = c.toLower ∨ d = c.toUpper) (upper : c.toUpper = c) :
    d = c ∨ d = c.toLower := by
  rw [upper] at change
  tauto

end CaseChange

theorem caseless_of_isDigit {c : Char} (digit : c.isDigit = true) : c.toLower = c ∧ c.toUpper = c := by
  simp only [Char.isDigit,Bool.and_eq_true,decide_eq_true_eq] at digit
  have small : c.toNat ≤ 57 := digit.2
  constructor
  · refine Char.toLower_eq_of_not_isUpper fun upper => ?_
    simp only [Char.isUpper,decide_eq_true_eq] at upper
    have large : 65 ≤ c.toNat := upper.1
    omega
  · refine Char.toUpper_eq_of_not_isLower fun lower => ?_
    simp only [Char.isLower,Bool.and_eq_true,decide_eq_true_eq] at lower
    have large : 97 ≤ c.toNat := lower.1
    omega

/-! ### Spellings -/

/-- The digits of a number with zeros before them. -/
theorem exists_digits (zeros n : ℕ) : ∃ c more, List.replicate zeros '0' ++ Nat.toDigits 10 n = c :: more ∧
    (∀ d ∈ c :: more, Text.isDigit d = true) ∧ (∀ d ∈ c :: more, d.isDigit = true) ∧
    Text.numberOf (c :: more) = n := by
  have nonempty : List.replicate zeros '0' ++ Nat.toDigits 10 n ≠ [] :=
    List.append_ne_nil_of_right_ne_nil _ Nat.toDigits_ne_nil
  obtain ⟨c,more,split⟩ := List.exists_cons_of_ne_nil nonempty
  refine ⟨c,more,split,?_,?_,?_⟩
  · intro d member
    rw [← split,List.mem_append] at member
    rcases member with zero | digit
    · rw [List.eq_of_mem_replicate zero]
      decide
    · exact Text.isDigit_of_mem_toDigits digit
  · intro d member
    rw [← split,List.mem_append] at member
    rcases member with zero | digit
    · rw [List.eq_of_mem_replicate zero]
      decide
    · exact Nat.isDigit_of_mem_toDigits (by decide) (by decide) digit
  · rw [← split,Text.numberOf_zeros,Text.numberOf_toDigits]

namespace BaseRing

/-- A spelling of the name of a prime field in any case is written like the name of its number. -/
theorem Spelling.fieldName {m : Modulus} {name cased : List Char} (spelled : Spelling (.residues m) name)
    (change : CaseChange name cased) : FieldName m.value cased := by
  cases spelled with
  | parenthesized _ zeros =>
    obtain ⟨c,more,split,digits,ascii,number⟩ := exists_digits zeros m.value
    rw [split] at change
    obtain ⟨g,_,first,later,rfl⟩ := List.forall₂_cons_left_iff.mp change
    obtain ⟨f,_,second,last,rfl⟩ := List.forall₂_cons_left_iff.mp later
    -- Behind the letters no character has a case.
    have same := CaseChange.eq_of_caseless last fun d member => by
      rcases List.mem_cons.mp member with rfl | inside
      · decide
      rcases List.mem_append.mp inside with digit | closing
      · exact caseless_of_isDigit (ascii d digit)
      · rw [List.mem_singleton.mp closing]
        decide
    rw [same]
    exact .mk (CaseChange.letter first rfl) (CaseChange.letter second rfl) (.inr rfl) (.inr rfl) digits number
  | bare _ zeros =>
    obtain ⟨c,more,split,digits,ascii,number⟩ := exists_digits zeros m.value
    rw [split] at change
    obtain ⟨g,_,first,later,rfl⟩ := List.forall₂_cons_left_iff.mp change
    obtain ⟨f,_,second,last,rfl⟩ := List.forall₂_cons_left_iff.mp later
    have same := CaseChange.eq_of_caseless last fun d member => caseless_of_isDigit (ascii d member)
    have named := FieldName.mk (CaseChange.letter first rfl) (CaseChange.letter second rfl) (.inl rfl) (.inl rfl)
      digits number
    rw [same]
    simpa using named

theorem ofModulus_of_not_prime {n : ℕ} (composite : ¬ n.Prime) :
    ofModulus (.integer n) = .error (.notPrime (.integer n)) := by
  rcases Modulus.ofInt?_cases n with ⟨m,-,same⟩ | ⟨none,-⟩
  · cases Int.ofNat_inj.mp same
    exact absurd Fact.out composite
  · exact ofModulus_of_none none

/-- The name of the integers or of the rational numbers in any case has the upper case of the name. -/
theorem upper_of_caseChange {c d e : Char} (known : c = 'Z' ∨ c = 'Q') (first : d = c ∨ d = c.toLower)
    (second : e = c ∨ e = c.toLower) : Text.upper (String.ofList [d,e]) = String.ofList [c,c] ∧
      Text.isBlank d = false ∧ Text.isBlank e = false := by
  rcases known with rfl | rfl
  all_goals
    rcases first with rfl | rfl
    all_goals
      rcases second with rfl | rfl
      all_goals exact ⟨rfl,by decide,by decide⟩

/-- Every spelling of a ring in any case and between any blanks names the ring. -/
theorem ofName_of_spelling {r : BaseRing} {name cased : List Char} {text : String} (spelled : Spelling r name)
    (change : CaseChange name cased) (between : BetweenBlanks cased text) : ofName text = .ok r := by
  have letters : ∀ c : Char, (c = 'Z' ∨ c = 'Q') → CaseChange [c,c] cased →
      ofName text = if String.ofList [c,c] = "ZZ" then .ok integers else .ok rationals := by
    intro c known change
    obtain ⟨d,_,first,later,rfl⟩ := List.forall₂_cons_left_iff.mp change
    obtain ⟨e,_,second,last,rfl⟩ := List.forall₂_cons_left_iff.mp later
    cases last
    have upper : c.toUpper = c := by rcases known with rfl | rfl <;> rfl
    obtain ⟨same,left,right⟩ := upper_of_caseChange known (CaseChange.letter first upper)
      (CaseChange.letter second upper)
    rw [ofName_eq between (List.cons_ne_nil d [e]) (by simpa using left) (by simpa using right),same]
    rcases known with rfl | rfl
    · rfl
    · rfl
  cases spelled with
  | integers => exact letters 'Z' (.inl rfl) change
  | rationals => exact letters 'Q' (.inr rfl) change
  | parenthesized m zeros =>
    rw [ofName_of_fieldName ((Spelling.parenthesized m zeros).fieldName change) between,ofModulus_of_prime]
  | bare m zeros =>
    rw [ofName_of_fieldName ((Spelling.bare m zeros).fieldName change) between,ofModulus_of_prime]

/-- The name of a ring is a spelling of it. -/
theorem spelling_name {r : BaseRing} (takes : r.TakesNumbers) : Spelling r r.name.toList := by
  cases r with
  | integers => exact .integers
  | rationals => exact .rationals
  | residues m =>
    have digits : (toString m.value).toList = Nat.toDigits 10 m.value := Nat.toList_repr
    have text : (residues m).name.toList =
        ['G','F','('] ++ (List.replicate 0 '0' ++ Nat.toDigits 10 m.value) ++ [')'] := by
      rw [← digits]
      simp only [name,String.toList_append]
      rfl
    rw [text]
    exact .parenthesized m 0
  | bare => exact takes.elim

theorem ofModulus_takesNumbers {v : Value} {r : BaseRing} (found : ofModulus v = .ok r) :
    r.TakesNumbers := by
  rw [ofModulus] at found
  split at found
  · split at found
    · cases found
      exact trivial
    · cases found
  · cases found

/-- A ring with a name takes in numbers. -/
theorem ofName_takesNumbers {name : String} {r : BaseRing} (named : ofName name = .ok r) :
    r.TakesNumbers := by
  simp only [ofName] at named
  split at named
  · cases named
    exact trivial
  split at named
  · cases named
    exact trivial
  split at named
  · exact ofModulus_takesNumbers named
  · cases named

/-- The name of a ring is a spelling of it, and every spelling in any case and between any blanks names the
    ring, so that a ring that was found by some name is found by its own. What is written like the name of a
    prime field names the field of its number, and is refused if that is not prime. -/
theorem ofName_total_correct :
    (∀ r : BaseRing, r.TakesNumbers → Spelling r r.name.toList) ∧
    (∀ r name cased text, Spelling r name → CaseChange name cased → BetweenBlanks cased text →
      ofName text = .ok r) ∧
    (∀ text r, ofName text = .ok r → ofName r.name = .ok r) ∧
    ∀ n name text, FieldName n name → BetweenBlanks name text →
      (∀ m : Modulus, m.value = n → ofName text = .ok (residues m)) ∧
      (¬ n.Prime → ofName text = .error (.notPrime (.integer n))) := by
  refine ⟨fun r => spelling_name,fun r name cased text => ofName_of_spelling,?_,?_⟩
  · intro text r named
    have same : CaseChange r.name.toList r.name.toList := List.forall₂_same.mpr fun c _ => .inl rfl
    exact ofName_of_spelling (spelling_name (ofName_takesNumbers named)) same ⟨[],[],by simp,nofun,nofun⟩
  · intro n name text named between
    rw [ofName_of_fieldName named between]
    refine ⟨?_,ofModulus_of_not_prime⟩
    rintro m rfl
    exact ofModulus_of_prime m

end BaseRing
end Bezout

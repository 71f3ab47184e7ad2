import Bezout.Proofs.Grammar
import Mathlib.Tactic.IntervalCases

/-!
The tokens that written numerals, names and signs are read as. A token is read as far as it goes,
so that characters are read as tokens only if what comes after them does not go on with the last
of these (`Ends`, `LexesAs`).
-/
namespace Bezout

/-! ### Digits -/

namespace Text

theorem digitValue?_digitChar {d : ℕ} (digit : d < 10) : digitValue? (Nat.digitChar d) = some d := by
  interval_cases d <;> decide

/-- The digits of a number write it. -/
theorem numberOf_toDigits (n : ℕ) : numberOf (Nat.toDigits 10 n) = n := by
  induction n using Nat.strong_induction_on with
  | h n ih =>
    by_cases small : n < 10
    · rw [Nat.toDigits_of_lt_base small]
      simp [numberOf,digitValue?_digitChar small]
    · -- The digits before the last write the tenth part.
      have last := digitValue?_digitChar (Nat.mod_lt n (by decide : 0 < 10))
      have higher := ih (n / 10) (by omega)
      rw [numberOf] at higher
      rw [Nat.toDigits_of_base_le (by decide) (by omega),numberOf,List.foldl_append,higher]
      simp only [List.foldl_cons,List.foldl_nil,last,Option.getD_some]
      omega

theorem isDigit_of_mem_toDigits {n : ℕ} {c : Char} (member : c ∈ Nat.toDigits 10 n) :
    isDigit c = true := by
  have ascii := Nat.isDigit_of_mem_toDigits (by decide) (by decide) member
  simp only [Char.isDigit,Bool.and_eq_true,decide_eq_true_eq] at ascii
  have low : 48 ≤ c.toNat := ascii.1
  have high : c.toNat ≤ 57 := ascii.2
  simp [isDigit,digitValue?,digitSpans,low,high]

/-- Digits other than the ASCII digits come after all the characters that a name starts with. -/
theorem isDigit_of_startsWord {c : Char} (starts : startsWord c = true) : isDigit c = false := by
  have spans : ∀ span ∈ digitSpans, span.2 < 65 ∨ 122 < span.1 := by decide
  have letter : 65 ≤ c.toNat ∧ c.toNat ≤ 122 := by
    simp only [startsWord,Char.isAlpha,Char.isUpper,Char.isLower,Bool.or_eq_true,Bool.and_eq_true,
      decide_eq_true_eq,beq_iff_eq,ge_iff_le,UInt32.le_iff_toNat_le] at starts
    rcases starts with (⟨low,high⟩ | ⟨low,high⟩) | rfl
    · exact ⟨low,high.trans (by decide)⟩
    · exact ⟨low.trans' (by decide),high⟩
    · decide
  have none : digitValue? c = none := by
    rw [digitValue?,Option.map_eq_none_iff,List.find?_eq_none]
    intro span member
    have apart := spans span member
    simp only [Bool.and_eq_true,decide_eq_true_eq]
    omega
  rw [isDigit,none]
  rfl

theorem exists_cons_of_isWord {cs : List Char} (word : isWord cs = true) :
    ∃ c more, cs = c :: more ∧ startsWord c = true ∧ ∀ d ∈ more, isWordChar d = true := by
  cases cs with
  | nil => cases word
  | cons c more =>
    rw [isWord,Bool.and_eq_true,List.all_eq_true] at word
    exact ⟨c,more,rfl,word⟩

theorem isWordChar_blanks :
    isWordChar ' ' = false ∧ isWordChar '\t' = false ∧ isWordChar '\n' = false := by decide +kernel

end Text

/-! ### Tokens -/

def Sign.character : Sign → Char
  | plus => '+'
  | minus => '-'

/-- The tokens of a row of characters, whatever their places. -/
inductive Lexes : List Char → List Token → Prop
  | nil : Lexes [] []
  | gap {c : Char} {rest : List Char} {ts : List Token} (between : isGap c = true)
      (later : Lexes rest ts) : Lexes (c :: rest) ts
  | token {c : Char} {rest : List Char} {t : Token} {more : ℕ} {ts : List Token}
      (separate : isGap c = false) (found : tokenAt c rest = some (t,more))
      (later : Lexes (rest.drop more) ts) : Lexes (c :: rest) (t :: ts)

theorem Lexes.eq_nil {ts : List Token} (lexes : Lexes [] ts) : ts = [] := by
  cases lexes
  rfl

theorem Lexes.scanFrom {cs : List Char} {ts : List Token} (lexes : Lexes cs ts) (position : ℕ) :
    (scanFrom position cs).illegal = none ∧ (scanFrom position cs).tokens.map Placed.token = ts := by
  induction lexes generalizing position with
  | nil => simp [Bezout.scanFrom]
  | gap between _ ih =>
    rw [Bezout.scanFrom,if_pos between]
    exact ih _
  | token separate found _ ih =>
    obtain ⟨legal,tokens⟩ := ih (position + 1 + _)
    rw [Bezout.scanFrom,if_neg (by simp [separate]),found]
    exact ⟨legal,congrArg _ tokens⟩

theorem Lexes.tokenize {text : String} {ts : List Token} (lexes : Lexes text.toList ts) :
    ∃ placed, tokenize text = .ok placed ∧ placed.map Placed.token = ts := by
  obtain ⟨legal,tokens⟩ := lexes.scanFrom 0
  refine ⟨_,?_,tokens⟩
  rw [Bezout.tokenize,scan]
  split
  · rename_i found
    rw [found]
  · rename_i found
    rw [found] at legal
    cases legal

/-- The characters of a kind without blanks are none that separate tokens. -/
theorem isGap_eq_false {kind : Char → Bool} {c : Char} (inside : kind c = true)
    (blanks : kind ' ' = false ∧ kind '\t' = false ∧ kind '\n' = false) : isGap c = false := by
  obtain ⟨space,tab,line⟩ := blanks
  simp only [isGap,Bool.or_eq_false_iff,beq_eq_false_iff_ne]
  refine ⟨⟨?_,?_⟩,?_⟩ <;> rintro rfl <;> simp_all

/-- What comes next does not go on with characters of a kind. -/
def Ends (kind : Char → Bool) (rest : List Char) : Prop := ∀ c ∈ rest.head?, kind c = false

theorem Ends.of_isGap {kind : Char → Bool} {rest : List Char}
    (gap : ∀ c ∈ rest.head?, isGap c = true)
    (blanks : kind ' ' = false ∧ kind '\t' = false ∧ kind '\n' = false) : Ends kind rest := by
  intro c next
  by_contra inside
  have separate := isGap_eq_false (by simpa using inside) blanks
  rw [gap c next] at separate
  cases separate

theorem ends_caret (rest : List Char) : Ends Text.isWordChar ('^' :: rest) := by
  rintro c ⟨⟩
  decide +kernel

theorem ends_slash (rest : List Char) : Ends Text.isDigit ('/' :: rest) := by
  rintro c ⟨⟩
  rfl

/-- A name ends a numeral. -/
theorem ends_word {name : String} (word : Text.isWord name.toList = true) (rest : List Char) :
    Ends Text.isDigit (name.toList ++ rest) := by
  obtain ⟨c,more,split,starts,-⟩ := Text.exists_cons_of_isWord word
  rw [split]
  rintro d ⟨⟩
  exact Text.isDigit_of_startsWord starts

theorem takeWhile_append_of_ends {kind : Char → Bool} {cs rest : List Char}
    (inside : ∀ c ∈ cs, kind c = true) (ends : Ends kind rest) : (cs ++ rest).takeWhile kind = cs := by
  have stops : rest.takeWhile kind = [] := by
    cases rest with
    | nil => rfl
    | cons c more => simp [ends c rfl]
  rw [List.takeWhile_append_of_pos inside,stops,List.append_nil]

/-- A token of one or more characters of a kind. -/
theorem Lexes.span {c : Char} {more rest : List Char} {t : Token} {ts : List Token}
    (separate : isGap c = false) (found : tokenAt c (more ++ rest) = some (t,more.length))
    (later : Lexes rest ts) : Lexes (c :: more ++ rest) (t :: ts) :=
  .token separate found (by rwa [List.append_eq,List.drop_left])

theorem Lexes.numeral {rest : List Char} {ts : List Token} (n : ℕ) (ends : Ends Text.isDigit rest)
    (later : Lexes rest ts) : Lexes (Nat.toDigits 10 n ++ rest) (.numeral n :: ts) := by
  have digits : ∀ c ∈ Nat.toDigits 10 n, Text.isDigit c = true := fun c => Text.isDigit_of_mem_toDigits
  have number := Text.numberOf_toDigits n
  cases split : Nat.toDigits 10 n with
  | nil => exact absurd split Nat.toDigits_ne_nil
  | cons c more =>
    rw [split] at digits number
    have digit := digits c List.mem_cons_self
    have name : ¬ Text.startsWord c = true := by
      intro starts
      rw [Text.isDigit_of_startsWord starts] at digit
      cases digit
    refine .span (isGap_eq_false digit (by decide)) ?_ later
    unfold tokenAt
    rw [if_neg name,if_pos digit,
      takeWhile_append_of_ends (fun d member => digits d (List.mem_cons_of_mem c member)) ends]
    exact congrArg (fun value => some (Token.numeral value,more.length)) number

theorem Lexes.word {name : String} {rest : List Char} {ts : List Token}
    (word : Text.isWord name.toList = true) (ends : Ends Text.isWordChar rest) (later : Lexes rest ts) :
    Lexes (name.toList ++ rest) (.word name :: ts) := by
  obtain ⟨c,more,split,starts,inside⟩ := Text.exists_cons_of_isWord word
  have whole : String.ofList (c :: more) = name := by rw [← split,String.ofList_toList]
  rw [split]
  refine .span (isGap_eq_false starts (by decide)) ?_ later
  unfold tokenAt
  rw [if_pos starts,takeWhile_append_of_ends inside ends]
  exact congrArg (fun text => some (Token.word text,more.length)) whole

theorem Lexes.caret {rest : List Char} {ts : List Token} (later : Lexes rest ts) :
    Lexes ('^' :: rest) (.caret :: ts) := .token rfl rfl later

theorem Lexes.slash {rest : List Char} {ts : List Token} (later : Lexes rest ts) :
    Lexes ('/' :: rest) (.slash :: ts) := .token rfl rfl later

theorem Lexes.minus {rest : List Char} {ts : List Token} (later : Lexes rest ts) :
    Lexes ('-' :: rest) (.minus :: ts) := .token rfl rfl later

/-- A sign between blanks. -/
theorem Lexes.between {rest : List Char} {ts : List Token} (s : Sign) (later : Lexes rest ts) :
    Lexes (' ' :: s.character :: ' ' :: rest) (s.token :: ts) := by
  cases s with
  | plus => exact .gap rfl (.token rfl rfl (.gap rfl later))
  | minus => exact .gap rfl (.token rfl rfl (.gap rfl later))

/-- The characters are read as the tokens wherever a blank or nothing comes after them. -/
def LexesAs (cs : List Char) (ts : List Token) : Prop :=
  ∀ rest later, (∀ c ∈ rest.head?, isGap c = true) → Lexes rest later → Lexes (cs ++ rest) (ts ++ later)

theorem LexesAs.lexes {cs : List Char} {ts : List Token} (reads : LexesAs cs ts) : Lexes cs ts := by
  simpa using reads [] [] (by simp) .nil

end Bezout

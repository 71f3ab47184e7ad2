import Bezout.Proofs.Lexing
import Bezout.Proofs.Parsing

/-!
Where the tokens of a text stand. Every token is the longest lexeme at its place (`Token.Longest`), and the
tokens leave only gaps uncovered (`Covering`), so that a text is refused at the first place outside gaps and
tokens at which no lexeme starts (`IllegalAt`). Lexemes with gaps between them (`Spaced`) are read as the
same tokens again, wherever they came from.
-/
namespace Bezout

/-! ### Lexemes -/

/-- The characters that write a token. -/
inductive Token.Lexeme : Token → List Char → Prop
  | word {name : String} (word : Text.isWord name.toList = true) : Lexeme (.word name) name.toList
  | numeral {c : Char} {more : List Char} (digits : ∀ d ∈ c :: more, Text.isDigit d = true) :
      Lexeme (.numeral (Text.numberOf (c :: more))) (c :: more)
  | caret : Lexeme .caret ['^']
  | stars : Lexeme .stars ['*','*']
  | plus : Lexeme .plus ['+']
  | minus : Lexeme .minus ['-']
  | times : Lexeme .times ['*']
  | slash : Lexeme .slash ['/']
  | openParen : Lexeme .openParen ['(']
  | closeParen : Lexeme .closeParen [')']

/-- The characters at the start of a text that write a token, and as many as ever write one there. -/
structure Token.Longest (t : Token) (lexeme text : List Char) : Prop where
  written : t.Lexeme lexeme
  starts : lexeme <+: text
  longest : ∀ (u : Token) other, u.Lexeme other → other <+: text → other.length ≤ lexeme.length

theorem Token.Lexeme.ne_nil {t : Token} {lexeme : List Char} (written : t.Lexeme lexeme) : lexeme ≠ [] := by
  cases written with
  | word word =>
    intro empty
    rw [empty] at word
    cases word
  | _ => exact List.cons_ne_nil _ _

theorem not_startsWord_of_isDigit {c : Char} (digit : Text.isDigit c = true) : ¬ Text.startsWord c = true := by
  intro starts
  rw [Text.isDigit_of_startsWord starts] at digit
  cases digit

theorem take_length_takeWhile (kind : Char → Bool) (cs : List Char) :
    cs.take (cs.takeWhile kind).length = cs.takeWhile kind :=
  (List.prefix_iff_eq_take.mp (List.takeWhile_prefix kind)).symm

/-- What is read as a token writes it. -/
theorem lexeme_of_tokenAt {c : Char} {rest : List Char} {t : Token} {more : ℕ}
    (found : tokenAt c rest = some (t,more)) : t.Lexeme (c :: rest.take more) ∧ more ≤ rest.length := by
  unfold tokenAt at found
  split at found
  · rename_i starts
    cases found
    have whole : (String.ofList (c :: rest.takeWhile Text.isWordChar)).toList =
        c :: rest.takeWhile Text.isWordChar := String.toList_ofList
    rw [take_length_takeWhile]
    refine ⟨?_,(List.takeWhile_prefix _).length_le⟩
    have word : Text.isWord (String.ofList (c :: rest.takeWhile Text.isWordChar)).toList = true := by
      rw [whole,Text.isWord,starts,List.all_takeWhile]
      rfl
    have written := Token.Lexeme.word word
    rwa [whole] at written
  · split at found
    · rename_i digit
      cases found
      rw [take_length_takeWhile]
      refine ⟨.numeral ?_,(List.takeWhile_prefix _).length_le⟩
      rintro d (_ | ⟨_,member⟩)
      · exact digit
      · exact List.mem_takeWhile_imp member
    · split at found
      all_goals cases found
      · exact ⟨.caret,Nat.zero_le _⟩
      · exact ⟨.stars,by simp⟩
      · exact ⟨.times,Nat.zero_le _⟩
      · exact ⟨.plus,Nat.zero_le _⟩
      · exact ⟨.minus,Nat.zero_le _⟩
      · exact ⟨.slash,Nat.zero_le _⟩
      · exact ⟨.openParen,Nat.zero_le _⟩
      · exact ⟨.closeParen,Nat.zero_le _⟩

/-- Characters of a kind that come first are among those that are taken while they last. -/
theorem length_le_takeWhile {kind : Char → Bool} {cs rest : List Char} (starts : cs <+: rest)
    (inside : ∀ c ∈ cs, kind c = true) : cs.length ≤ (rest.takeWhile kind).length := by
  obtain ⟨later,rfl⟩ := starts
  rw [List.takeWhile_append_of_pos inside,List.length_append]
  exact Nat.le_add_right _ _

/-- An asterisk is a token of its own unless another one comes next. -/
theorem tokenAt_asterisk {rest : List Char} (single : rest.head? ≠ some '*') :
    tokenAt '*' rest = some (.times,0) := by
  cases rest with
  | nil => rfl
  | cons d later =>
    have other : d ≠ '*' := fun same => single (congrArg some same)
    unfold tokenAt
    rw [if_neg (by decide),if_neg (by decide)]
    split
    all_goals simp_all

/-- Where a lexeme starts, a token is read that is no shorter. -/
theorem Token.Lexeme.exists_tokenAt {t : Token} {lexeme : List Char} {c : Char} {rest : List Char}
    (written : t.Lexeme lexeme) (starts : lexeme <+: c :: rest) :
    ∃ u more, tokenAt c rest = some (u,more) ∧ lexeme.length ≤ more + 1 := by
  cases written with
  | word word =>
    obtain ⟨d,more,split,first,inside⟩ := Text.exists_cons_of_isWord word
    rw [split] at starts ⊢
    obtain ⟨rfl,later⟩ := List.cons_prefix_cons.mp starts
    exact ⟨_,_,if_pos first,Nat.succ_le_succ (length_le_takeWhile later inside)⟩
  | @numeral d more digits =>
    obtain ⟨rfl,later⟩ := List.cons_prefix_cons.mp starts
    have digit := digits d List.mem_cons_self
    refine ⟨_,_,(if_neg (not_startsWord_of_isDigit digit)).trans (if_pos digit),Nat.succ_le_succ ?_⟩
    exact length_le_takeWhile later fun e member => digits e (List.mem_cons_of_mem d member)
  | stars =>
    obtain ⟨rfl,⟨later,rfl⟩⟩ := List.cons_prefix_cons.mp starts
    exact ⟨.stars,1,rfl,le_rfl⟩
  | times =>
    obtain ⟨rfl,-⟩ := List.cons_prefix_cons.mp starts
    -- A second asterisk would belong to the token.
    by_cases double : rest.head? = some '*'
    · obtain ⟨later,rfl⟩ := List.head?_eq_some_iff.mp double
      exact ⟨.stars,1,rfl,by decide⟩
    · exact ⟨.times,0,tokenAt_asterisk double,le_rfl⟩
  | _ =>
    obtain ⟨rfl,-⟩ := List.cons_prefix_cons.mp starts
    exact ⟨_,_,rfl,le_rfl⟩

/-- What is read as a token is the longest lexeme there. -/
theorem longest_of_tokenAt {c : Char} {rest : List Char} {t : Token} {more : ℕ}
    (found : tokenAt c rest = some (t,more)) : t.Longest (c :: rest.take more) (c :: rest) := by
  obtain ⟨written,inside⟩ := lexeme_of_tokenAt found
  refine ⟨written,List.cons_prefix_cons.mpr ⟨rfl,List.take_prefix more rest⟩,?_⟩
  intro u other also starts
  obtain ⟨v,length,read,bound⟩ := also.exists_tokenAt starts
  cases found.symm.trans read
  rwa [List.length_cons,List.length_take_of_le inside]

/-! ### Places -/

/-- Tokens in a text from one place to another. Each is the longest lexeme at its place, they stand one after
    the other, and what they leave uncovered are gaps. -/
structure Covering (text : List Char) (start stop : ℕ) (ts : List Placed) : Prop where
  bounds : start ≤ stop
  longest : ∀ t ∈ ts, t.token.Longest t.lexeme (text.drop t.position)
  inside : ∀ t ∈ ts, start ≤ t.position ∧ t.position + t.lexeme.length ≤ stop
  increasing : ts.Pairwise fun t u => t.position < u.position
  apart : ts.Pairwise fun t u => t.position + t.lexeme.length ≤ u.position
  between : ∀ place c, start ≤ place → place < stop → text[place]? = some c →
    (∀ t ∈ ts, ¬ (t.position ≤ place ∧ place < t.position + t.lexeme.length)) → isGap c = true

/-- The character at a place is no gap, and no lexeme starts with it. -/
structure IllegalAt (text : List Char) (c : Char) (place : ℕ) : Prop where
  found : text[place]? = some c
  separate : isGap c = false
  unread : ∀ (t : Token) lexeme, t.Lexeme lexeme → ¬ lexeme <+: text.drop place

namespace Covering
variable {text : List Char} {start stop : ℕ} {ts : List Placed}

theorem nil (text : List Char) (start : ℕ) : Covering text start start [] where
  bounds := le_rfl
  longest := nofun
  inside := nofun
  increasing := .nil
  apart := .nil
  between place c from_start before := by omega

theorem gap {c : Char} (found : text[start]? = some c) (between : isGap c = true)
    (later : Covering text (start + 1) stop ts) : Covering text start stop ts where
  bounds := (Nat.le_succ start).trans later.bounds
  longest := later.longest
  inside t member := ⟨(Nat.le_succ start).trans (later.inside t member).1,(later.inside t member).2⟩
  increasing := later.increasing
  apart := later.apart
  between place d from_start before there uncovered := by
    by_cases first : place = start
    · subst first
      cases found.symm.trans there
      exact between
    · exact later.between place d (by omega) before there uncovered

theorem token {t : Placed} (at_start : t.position = start) (longest : t.token.Longest t.lexeme (text.drop start))
    (later : Covering text (start + t.lexeme.length) stop ts) : Covering text start stop (t :: ts) := by
  have length := List.length_pos_iff.mpr longest.written.ne_nil
  have bounds := later.bounds
  refine ⟨by omega,?_,?_,.cons ?_ later.increasing,.cons ?_ later.apart,?_⟩
  · rintro u (_ | ⟨_,member⟩)
    · rwa [at_start]
    · exact later.longest u member
  · rintro u (_ | ⟨_,member⟩)
    · omega
    · have inside := later.inside u member
      omega
  · intro u member
    have inside := later.inside u member
    omega
  · intro u member
    have inside := later.inside u member
    omega
  · intro place c from_start before there uncovered
    have passed := uncovered t List.mem_cons_self
    exact later.between place c (by omega) before there fun u member =>
      uncovered u (List.mem_cons_of_mem t member)

end Covering

/-- The character at a place, and what comes after it. -/
theorem getElem?_of_drop {text cs : List Char} {start : ℕ} {c : Char} (rest : text.drop start = c :: cs) :
    text[start]? = some c ∧ text.drop (start + 1) = cs ∧ start < text.length := by
  have found : text[start]? = some c := by rw [← List.head?_drop,rest,List.head?_cons]
  refine ⟨found,?_,(List.getElem?_eq_some_iff.mp found).1⟩
  rw [← List.tail_drop,rest,List.tail_cons]

/-- Tokens are read from a place on up to the end of the text or to an illegal character. -/
theorem scanFrom_covering (text : List Char) (start : ℕ) (cs : List Char) (rest : text.drop start = cs)
    (inside : start ≤ text.length) :
    ((scanFrom start cs).illegal = none → Covering text start text.length (scanFrom start cs).tokens) ∧
      ∀ c place, (scanFrom start cs).illegal = some (c,place) →
        Covering text start place (scanFrom start cs).tokens ∧ IllegalAt text c place := by
  fun_induction scanFrom start cs with
  | case1 start =>
    have ended : start = text.length := le_antisymm inside (List.drop_eq_nil_iff.mp rest)
    subst ended
    exact ⟨fun _ => .nil text _,nofun⟩
  | case2 start c cs gap ih =>
    obtain ⟨found,later,before⟩ := getElem?_of_drop rest
    obtain ⟨whole,illegal⟩ := ih later before
    refine ⟨fun legal => (whole legal).gap found gap,fun d place refused => ?_⟩
    obtain ⟨covered,unread⟩ := illegal d place refused
    exact ⟨covered.gap found gap,unread⟩
  | case3 start c cs separate none =>
    obtain ⟨found,-,-⟩ := getElem?_of_drop rest
    refine ⟨nofun,?_⟩
    rintro d place ⟨⟩
    refine ⟨.nil text _,found,by simpa using separate,fun t lexeme written starts => ?_⟩
    rw [rest] at starts
    obtain ⟨u,more,read,-⟩ := written.exists_tokenAt starts
    cases none.symm.trans read
  | case4 start c cs separate t more found later ih =>
    obtain ⟨written,fits⟩ := lexeme_of_tokenAt found
    have longest : t.Longest (c :: cs.take more) (text.drop start) := by
      rw [rest]
      exact longest_of_tokenAt found
    have length : start + (c :: cs.take more).length = start + 1 + more := by
      rw [List.length_cons,List.length_take_of_le fits]
      omega
    obtain ⟨-,after,before⟩ := getElem?_of_drop rest
    have bound := congrArg List.length after
    rw [List.length_drop] at bound
    obtain ⟨whole,illegal⟩ := ih (by rw [← after,List.drop_drop]) (by omega)
    have joined : ∀ {stop ts}, Covering text (start + 1 + more) stop ts →
        Covering text start stop (⟨t,c :: cs.take more,start⟩ :: ts) :=
      fun covered => .token rfl longest (length ▸ covered)
    refine ⟨fun legal => joined (whole legal),fun d place refused => ?_⟩
    obtain ⟨covered,unread⟩ := illegal d place refused
    exact ⟨joined covered,unread⟩

/-! ### Lexemes apart from each other -/

/-- Lexemes with gaps of one or more characters between them. -/
inductive Spaced : List (List Char) → List Char → Prop
  | nil : Spaced [] []
  | last (lexeme : List Char) : Spaced [lexeme] lexeme
  | next {lexeme gap later : List Char} {lexemes : List (List Char)} (nonempty : gap ≠ [])
      (between : ∀ c ∈ gap, isGap c = true) (more : lexemes ≠ []) (rest : Spaced lexemes later) :
      Spaced (lexeme :: lexemes) (lexeme ++ gap ++ later)

/-- A row of digits that does not go on is read as the number it writes. -/
theorem Lexes.digits {c : Char} {more rest : List Char} {ts : List Token}
    (digits : ∀ d ∈ c :: more, Text.isDigit d = true) (ends : Ends Text.isDigit rest)
    (later : Lexes rest ts) :
    Lexes (c :: more ++ rest) (.numeral (Text.numberOf (c :: more)) :: ts) := by
  have digit := digits c List.mem_cons_self
  refine .span (isGap_eq_false digit (by decide)) ?_ later
  unfold tokenAt
  rw [if_neg (not_startsWord_of_isDigit digit),if_pos digit,
    takeWhile_append_of_ends (fun d member => digits d (List.mem_cons_of_mem c member)) ends]

/-- A lexeme before a gap or the end of the text is read as its token. -/
theorem Token.Lexeme.lexesAs {t : Token} {lexeme : List Char} (written : t.Lexeme lexeme) :
    LexesAs lexeme [t] := by
  intro rest ts gap later
  cases written with
  | word word => exact .word word (.of_isGap gap Text.isWordChar_blanks) later
  | numeral digits => exact .digits digits (.of_isGap gap (by decide)) later
  | times =>
    have single : rest.head? ≠ some '*' := by
      intro double
      cases gap '*' double
    exact .token rfl (tokenAt_asterisk single) later
  | _ => exact .token rfl rfl later

theorem Lexes.gaps {gap rest : List Char} {ts : List Token} (between : ∀ c ∈ gap, isGap c = true)
    (later : Lexes rest ts) : Lexes (gap ++ rest) ts := by
  induction gap with
  | nil => exact later
  | cons c gap ih =>
    exact .gap (between c List.mem_cons_self) (ih fun d member => between d (List.mem_cons_of_mem c member))

/-- Lexemes with gaps between them are read one by one. -/
theorem Spaced.lexes {lexemes : List (List Char)} {joined : List Char} (spaced : Spaced lexemes joined)
    {ts : List Token} (written : List.Forall₂ Token.Lexeme ts lexemes) : Lexes joined ts := by
  induction spaced generalizing ts with
  | nil =>
    cases written
    exact .nil
  | last lexeme =>
    cases written with
    | cons first none =>
      cases none
      exact first.lexesAs.lexes
  | @next lexeme gap later lexemes nonempty between more rest ih =>
    cases written with
    | cons first others =>
      obtain ⟨c,gap,rfl⟩ := List.exists_cons_of_ne_nil nonempty
      rw [List.append_assoc]
      refine first.lexesAs _ _ ?_ (.gaps between (ih others))
      rintro d ⟨⟩
      exact between c List.mem_cons_self

theorem Covering.lexemes {text : List Char} {start stop : ℕ} {ts : List Placed}
    (covered : Covering text start stop ts) :
    List.Forall₂ Token.Lexeme (ts.map Placed.token) (ts.map Placed.lexeme) := by
  rw [List.forall₂_map_left_iff,List.forall₂_map_right_iff,List.forall₂_same]
  exact fun t member => (covered.longest t member).written

/-- A text is refused at the first place outside gaps and tokens at which no lexeme starts. If there is none,
    its tokens cover the text, and their lexemes are read as the same tokens again with any gaps between
    them. -/
theorem tokenize_total_correct (text : String) :
    (∃ ts, tokenize text = .ok ts ∧ Covering text.toList 0 text.toList.length ts ∧
      ∀ joined : String, Spaced (ts.map Placed.lexeme) joined.toList →
        ∃ us, tokenize joined = .ok us ∧ us.map Placed.token = ts.map Placed.token) ∨
    ∃ c place, tokenize text = .error (.illegalCharacter c place) ∧
      Covering text.toList 0 place (scan text).tokens ∧ IllegalAt text.toList c place := by
  obtain ⟨whole,refused⟩ := scanFrom_covering text.toList 0 text.toList rfl (Nat.zero_le _)
  cases outcome : (scan text).illegal with
  | none =>
    have covered := whole outcome
    refine .inl ⟨(scan text).tokens,?_,covered,fun joined spaced => ?_⟩
    · rw [tokenize]
      split
      · rename_i found
        rw [found]
      · rename_i found
        rw [found] at outcome
        cases outcome
    · exact (spaced.lexes covered.lexemes).tokenize
  | some fault =>
    obtain ⟨c,place⟩ := fault
    exact .inr ⟨c,place,tokenize_of_illegal outcome,refused c place outcome⟩

end Bezout
